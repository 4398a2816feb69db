import Cougr.Accounts.Devices
import Cougr.Accounts.Recovery

namespace Cougr.GuildArena

open Accounts

structure Fighter where
  health : Nat
  attack : Nat
  defense : Nat
  level : Nat

structure MatchRecord where
  wins : Nat
  losses : Nat
  rating : Nat

inductive GuildRole where
  | Leader
  | Officer
  | Member

structure GuildMembership where
  guildId : Nat
  role : GuildRole

structure PlayerProfile where
  address : Address
  fighter : Fighter
  record : MatchRecord
  guild : GuildMembership

inductive MatchStatus where
  | WaitingForPlayers
  | InProgress
  | Finished
  deriving DecidableEq

structure ArenaState where
  challenger : Address
  defender : Address
  challengerHp : Nat
  defenderHp : Nat
  round : Nat
  status : MatchStatus
  winner : Address

inductive CombatAction where
  | Attack
  | Defend
  | Special

structure RoundResult where
  round : Nat
  challengerHp : Nat
  defenderHp : Nat
  finished : Bool
  winner : Address

inductive DevicePolicyLevel where
  | Full
  | PlayOnly
  deriving DecidableEq

structure DevicePolicyEntry where
  level : DevicePolicyLevel

-- The entries that the contract keeps beside those of the accounts.
inductive ContractKey where
  | player (address : Address)
  | arena
  | devicePolicy (device : Address)
  | queue
  | deviceOwner (device : Address)
  deriving DecidableEq

abbrev ContractKey.Value : ContractKey → Type
  | .player _ => PlayerProfile
  | .arena => ArenaState
  | .devicePolicy _ => DevicePolicyEntry
  | .queue => Address
  | .deviceOwner _ => Address

def ContractKey.hostKey : ContractKey → Symbol ⊕ (Symbol × Address)
  | .player address => .inr (symbolShort "PLAYER", address)
  | .arena => .inl (symbolShort "ARENA")
  | .devicePolicy device => .inr (symbolShort "DEV_POL", device)
  | .queue => .inl (symbolShort "QUEUE")
  | .deviceOwner device => .inr (symbolShort "DEVOWNER", device)

-- The contract and the account modules do not share a key.
theorem hostKeys_injective : Function.Injective
    (Sum.elim ContractKey.hostKey fun key : AccountKey => .inr key.tuple) := by
  rintro (first | first) (second | second) h
  · cases first <;> cases second <;> simp_all [ContractKey.hostKey, symbolShort]
  · cases first <;> cases second <;> simp [ContractKey.hostKey, AccountKey.tuple, symbolShort, Symbol.new] at h
  · cases first <;> cases second <;> simp [ContractKey.hostKey, AccountKey.tuple, symbolShort, Symbol.new] at h
  · exact congrArg Sum.inr (AccountKey.tuple_injective (Sum.inr_injective h))

-- What an invocation of the contract sees of the host.
structure ContractEnv where
  accounts : Env
  storage : KeyStore ContractKey.Value

namespace ContractEnv

def get (env : ContractEnv) (key : ContractKey) : Option key.Value := env.storage.get key

def set (env : ContractEnv) (key : ContractKey) (value : key.Value) : ContractEnv :=
  { env with storage := env.storage.set key value }

def remove (env : ContractEnv) (key : ContractKey) : ContractEnv :=
  { env with storage := env.storage.remove key }

def requireAuth (env : ContractEnv) (address : Address) : Option ContractEnv := do
  return { env with accounts := ← env.accounts.requireAuth address }

end ContractEnv

-- `Result::unwrap`, of an operation that leaves an environment.
def unwrap {α : Type} (env : ContractEnv) : Except AccountError α × Env → Option (α × ContractEnv)
  | (.ok value, accounts) => some (value, { env with accounts })
  | (.error _, _) => none

def computeDamage (atk defense : Nat) (action : CombatAction) : Option Nat :=
  let base := if atk > defense then atk - defense else 1
  match action with
  | .Attack => checkedAdd u32Max base 5
  | .Defend => some (max (base - 3) 1)
  | .Special => checkedAdd u32Max base 12

section Ratings

def k : Nat := 32

-- Both quotients of the simplified formula are zero.
def winnerExpected : Nat := 100 / (100 + 1)

def loserExpected : Nat := 100 / (100 + 1)

-- Every third win makes the fighter stronger.
def levelUp (wins : Nat) (fighter : Fighter) : Option Fighter :=
  if wins % 3 = 0 then do
    let level ← checkedAdd u32Max fighter.level 1
    let attack ← checkedAdd u32Max fighter.attack 2
    let defense ← checkedAdd u32Max fighter.defense 1
    let health ← checkedAdd u32Max fighter.health 10
    return { health, attack, defense, level }
  else some fighter

def recordWin (profile : PlayerProfile) : Option PlayerProfile := do
  let wins ← checkedAdd u32Max profile.record.wins 1
  let rating ← checkedAdd u32Max profile.record.rating (k * (100 - winnerExpected) / 100)
  let fighter ← levelUp wins profile.fighter
  return { profile with record := { profile.record with wins, rating }, fighter }

def recordLoss (profile : PlayerProfile) : Option PlayerProfile := do
  let losses ← checkedAdd u32Max profile.record.losses 1
  let rating := profile.record.rating - k * loserExpected / 100
  return { profile with record := { profile.record with losses, rating } }

def updateRatings (env : ContractEnv) (arena : ArenaState) : Option ContractEnv := do
  let winnerProfile : PlayerProfile ← env.get (.player arena.winner)
  let loserAddr := if arena.winner = arena.challenger then arena.defender else arena.challenger
  let loserProfile : PlayerProfile ← env.get (.player loserAddr)
  let winnerProfile ← recordWin winnerProfile
  let loserProfile ← recordLoss loserProfile
  return (env.set (.player arena.winner) winnerProfile).set (.player loserAddr) loserProfile

end Ratings

def requirePlayPermission (env : ContractEnv) (device : Address) : Option Unit :=
  if (env.get (.devicePolicy device)).isNone then none else some ()

-- The last 32 characters of the address as the host writes it, zeros behind a shorter one.
def addrToBytes32 (toString : Address → Bytes) (address : Address) : BytesN 32 :=
  let bytes := toString address
  let start := bytes.length - 32
  Vector.ofFn fun i : Fin 32 => if i.val < min bytes.length 32 then bytes.getD (start + i.val) 0 else 0

def newProfile (player : Address) : PlayerProfile where
  address := player
  fighter := { health := 100, attack := 15, defense := 10, level := 1 }
  record := { wins := 0, losses := 0, rating := 1200 }
  guild := { guildId := 1, role := .Member }

def registerPlayer (env : ContractEnv) (player : Address) (guardians : List Address) (threshold timelock : Nat) :
    Option ContractEnv := do
  let env ← env.requireAuth player
  let config : RecoveryConfig := { threshold, timelockPeriod := timelock, maxGuardians := 5 }
  let (account, accounts) := RecoverableAccount.new player config env.accounts
  let env ← guardians.foldlM (fun env g => do
      let (_, env) ← unwrap env (account.addGuardian env.accounts g)
      return env)
    { env with accounts }
  let devicePolicy : DevicePolicy := { maxDevices := 5, autoRevokeAfter := 0 }
  let (_, accounts) := DeviceManager.new player devicePolicy env.accounts
  return { env with accounts }.set (.player player) (newProfile player)

def addDevice (toString : Address → Bytes) (env : ContractEnv) (player device : Address)
    (policy : DevicePolicyEntry) : Option ContractEnv := do
  let env ← env.requireAuth player
  let keyBytes := addrToBytes32 toString device
  let (_, env) ← unwrap env ((DeviceManager.load player).registerDevice env.accounts keyBytes
    (symbolShort "device"))
  let env := env.set (.devicePolicy device) policy
  return env.set (.deviceOwner device) player

-- The entries go whoever has added the device last.
def removeDevice (toString : Address → Bytes) (env : ContractEnv)
    (player device : Address) : Option ContractEnv := do
  let env ← env.requireAuth player
  let keyBytes := addrToBytes32 toString device
  let (_, env) ← unwrap env ((DeviceManager.load player).revokeDevice env.accounts keyBytes)
  let env := env.remove (.devicePolicy device)
  return env.remove (.deviceOwner device)

def newMatch (challenger defender : Address)
    (challengerProfile defenderProfile : PlayerProfile) : ArenaState where
  challenger
  defender
  challengerHp := challengerProfile.fighter.health
  defenderHp := defenderProfile.fighter.health
  round := 0
  status := .InProgress
  -- stands in until there is one
  winner := challenger

def startMatch (env : ContractEnv) (device : Address) : Option ContractEnv := do
  let env ← env.requireAuth device
  let player : Address ← env.get (.deviceOwner device)
  requirePlayPermission env device
  let profile : PlayerProfile ← env.get (.player player)
  match (env.get .queue : Option Address) with
  | some challenger =>
    if challenger = player then none
    else do
      let challengerProfile : PlayerProfile ← env.get (.player challenger)
      return (env.set .arena (newMatch challenger player challengerProfile profile)).remove .queue
  | none => return env.set .queue player

namespace ArenaState

-- The blow of a round; the difference saturates.
def strike (arena : ArenaState) (isChallenger : Bool) (damage round : Nat) : ArenaState :=
  if isChallenger then { arena with defenderHp := arena.defenderHp - damage, round }
  else { arena with challengerHp := arena.challengerHp - damage, round }

def settle (arena : ArenaState) : ArenaState × Bool :=
  if arena.challengerHp = 0 then ({ arena with status := .Finished, winner := arena.defender }, true)
  else if arena.defenderHp = 0 then ({ arena with status := .Finished, winner := arena.challenger }, true)
  else (arena, false)

end ArenaState

-- The device acts for a participant of a match that is on.
def actor (env : ContractEnv) (device : Address) : Option (ContractEnv × Address × ArenaState) := do
  let env ← env.requireAuth device
  let player : Address ← env.get (.deviceOwner device)
  requirePlayPermission env device
  let arena : ArenaState ← env.get .arena
  if arena.status ≠ .InProgress then none
  else
    let isChallenger := arena.challenger = player
    if ¬isChallenger ∧ arena.defender ≠ player then none
    else return (env, player, arena)

-- The end of a round.
def conclude (env : ContractEnv) (arena : ArenaState) (finished : Bool) : Option (RoundResult × ContractEnv) := do
  let env ← if finished then updateRatings env arena else some env
  let result : RoundResult :=
    { round := arena.round
      challengerHp := arena.challengerHp
      defenderHp := arena.defenderHp
      finished
      winner := arena.winner }
  return (result, env.set .arena arena)

def submitAction (env : ContractEnv) (device : Address) (action : CombatAction) :
    Option (RoundResult × ContractEnv) := do
  let (env, player, arena) ← actor env device
  let isChallenger : Bool := arena.challenger = player
  let challengerProfile : PlayerProfile ← env.get (.player arena.challenger)
  let defenderProfile : PlayerProfile ← env.get (.player arena.defender)
  let (atkStat, defStat) :=
    if isChallenger then (challengerProfile.fighter.attack, defenderProfile.fighter.defense)
    else (defenderProfile.fighter.attack, challengerProfile.fighter.defense)
  let damage ← computeDamage atkStat defStat action
  let round ← checkedAdd u32Max arena.round 1
  let (arena, finished) := (arena.strike isChallenger damage round).settle
  conclude env arena finished

-- Opens a request and gives the first approval.
def openRecovery (env : ContractEnv) (guardian player newKey : Address) : Option ContractEnv := do
  let account := RecoverableAccount.load player
  let (_, env) ← unwrap env (← account.initiateRecovery env.accounts newKey)
  let (_, env) ← unwrap env (account.approveRecovery env.accounts guardian)
  return env

def initiateRecovery (env : ContractEnv) (guardian player newKey : Address) : Option ContractEnv := do
  let env ← env.requireAuth guardian
  openRecovery env guardian player newKey

def approveRecovery (env : ContractEnv) (guardian player newKey : Address) : Option ContractEnv := do
  let env ← env.requireAuth guardian
  let account := RecoverableAccount.load player
  if (account.activeRequest env.accounts).isNone then openRecovery env guardian player newKey
  else do
    let (_, env) ← unwrap env (account.approveRecovery env.accounts guardian)
    return env

def finalizeRecovery (env : ContractEnv) (player : Address) : Option ContractEnv := do
  let (result, _, accounts) := (RecoverableAccount.load player).executeRecovery env.accounts
  let (newOwner, env) ← unwrap env (result, accounts)
  match (env.get (.player player) : Option PlayerProfile) with
  -- the old entry stays
  | some p => return env.set (.player newOwner) { p with address := newOwner }
  | none => return env

inductive ContractOp where
  | registerPlayer (player : Address) (guardians : List Address) (threshold timelock : Nat)
  | addDevice (player device : Address) (policy : DevicePolicyEntry)
  | removeDevice (player device : Address)
  | startMatch (device : Address)
  | submitAction (device : Address) (action : CombatAction)
  | initiateRecovery (guardian player newKey : Address)
  | approveRecovery (guardian player newKey : Address)
  | finalizeRecovery (player : Address)

-- A call in an invocation of its own.
structure ContractCall where
  timestamp : Nat
  authorized : Address → Bool
  op : ContractOp

-- What the contract and the account modules keep between invocations.
structure Entries where
  accounts : KeyStore AccountKey.Value
  storage : KeyStore ContractKey.Value

namespace ContractCall

def env (entries : Entries) (call : ContractCall) : ContractEnv where
  accounts :=
    { timestamp := call.timestamp, persistent := entries.accounts, authorized := call.authorized, authLog := [] }
  storage := entries.storage

def invoke (toString : Address → Bytes) (call : ContractCall) (env : ContractEnv) : Option ContractEnv :=
  match call.op with
  | .registerPlayer player guardians threshold timelock =>
    GuildArena.registerPlayer env player guardians threshold timelock
  | .addDevice player device policy => GuildArena.addDevice toString env player device policy
  | .removeDevice player device => GuildArena.removeDevice toString env player device
  | .startMatch device => GuildArena.startMatch env device
  | .submitAction device action => (GuildArena.submitAction env device action).map Prod.snd
  | .initiateRecovery guardian player newKey => GuildArena.initiateRecovery env guardian player newKey
  | .approveRecovery guardian player newKey => GuildArena.approveRecovery env guardian player newKey
  | .finalizeRecovery player => GuildArena.finalizeRecovery env player

-- A call that traps is rolled back.
def step (toString : Address → Bytes) (entries : Entries) (call : ContractCall) : Entries :=
  match call.invoke toString (call.env entries) with
  | some env => ⟨env.accounts.persistent, env.storage⟩
  | none => entries

end ContractCall

def nothingStored : Entries := ⟨KeyStore.empty, KeyStore.empty⟩

end Cougr.GuildArena
