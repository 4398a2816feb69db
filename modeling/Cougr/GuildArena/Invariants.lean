import Cougr.GuildArena.Calls

namespace Cougr.GuildArena

open Accounts ContractEnv

section Profiles

-- A profile is kept under its own address, and what the fighter can do follows from the wins.
structure Earned (address : Address) (profile : PlayerProfile) : Prop where
  address : profile.address = address
  rating : profile.record.rating = 1200 + 32 * profile.record.wins
  fits : profile.record.rating ≤ u32Max
  level : profile.fighter.level = 1 + profile.record.wins / 3
  attack : profile.fighter.attack = 15 + 2 * (profile.record.wins / 3)
  defense : profile.fighter.defense = 10 + profile.record.wins / 3
  health : profile.fighter.health = 100 + 10 * (profile.record.wins / 3)

theorem earned_newProfile (player : Address) : Earned player (newProfile player) := by
  constructor <;> simp [newProfile, u32Max]

theorem Earned.renamed {address newOwner : Address} {profile : PlayerProfile} (h : Earned address profile) :
    Earned newOwner { profile with address := newOwner } :=
  ⟨rfl, h.rating, h.fits, h.level, h.attack, h.defense, h.health⟩

theorem Earned.health_bounds {address : Address} {profile : PlayerProfile} (h : Earned address profile) :
    0 < profile.fighter.health ∧ profile.fighter.health ≤ 500000000 := by
  have hfits := h.fits
  rw [h.rating, u32Max] at hfits
  rw [h.health]
  omega

-- The wins grow by one, so that a third of them is complete exactly when the fighter grows.
theorem levelUp_spec {wins : Nat} {fighter leveled : Fighter} (h : levelUp (wins + 1) fighter = some leveled) :
    ∃ bonus, wins / 3 + bonus = (wins + 1) / 3 ∧ leveled.health = fighter.health + 10 * bonus ∧
      leveled.attack = fighter.attack + 2 * bonus ∧ leveled.defense = fighter.defense + bonus ∧
      leveled.level = fighter.level + bonus := by
  rw [levelUp] at h
  split_ifs at h with hthird
  · simp only [Option.bind_eq_bind, Option.bind_eq_some_iff, checkedAdd_eq_some_iff] at h
    obtain ⟨_, ⟨rfl, _⟩, _, ⟨rfl, _⟩, _, ⟨rfl, _⟩, _, ⟨rfl, _⟩, h⟩ := h
    obtain rfl := Option.some.inj h
    exact ⟨1, by omega, rfl, rfl, rfl, rfl⟩
  · obtain rfl := Option.some.inj h
    exact ⟨0, by omega, rfl, rfl, rfl, rfl⟩

theorem earned_recordWin {address : Address} {profile won : PlayerProfile} (h : Earned address profile)
    (hwon : recordWin profile = some won) :
    Earned address won ∧ won.record.wins = profile.record.wins + 1 ∧
      won.record.losses = profile.record.losses := by
  simp only [recordWin, Option.bind_eq_bind, Option.bind_eq_some_iff, checkedAdd_eq_some_iff, k,
    winnerExpected] at hwon
  obtain ⟨_, ⟨rfl, _⟩, _, ⟨rfl, hfits⟩, leveled, hleveled, hwon⟩ := hwon
  obtain rfl := Option.some.inj hwon
  obtain ⟨bonus, hbonus, hhealth, hattack, hdefense, hlevel⟩ := levelUp_spec hleveled
  have hrating := h.rating
  refine ⟨⟨h.address, ?_, hfits, ?_, ?_, ?_, ?_⟩, rfl, rfl⟩
  · change profile.record.rating + 32 * (100 - 0) / 100 = 1200 + 32 * (profile.record.wins + 1)
    omega
  · rw [hlevel, h.level, ← hbonus, Nat.add_assoc]
  · rw [hattack, h.attack, ← hbonus, Nat.mul_add, Nat.add_assoc]
  · rw [hdefense, h.defense, ← hbonus, Nat.add_assoc]
  · rw [hhealth, h.health, ← hbonus, Nat.mul_add, Nat.add_assoc]

theorem earned_recordLoss {address : Address} {profile lost : PlayerProfile} (h : Earned address profile)
    (hlost : recordLoss profile = some lost) :
    Earned address lost ∧ lost.record.wins = profile.record.wins ∧
      lost.record.losses = profile.record.losses + 1 := by
  simp only [recordLoss, Option.bind_eq_bind, Option.bind_eq_some_iff, checkedAdd_eq_some_iff] at hlost
  obtain ⟨_, ⟨rfl, _⟩, hlost⟩ := hlost
  obtain rfl := Option.some.inj hlost
  exact ⟨⟨h.address, h.rating, h.fits, h.level, h.attack, h.defense, h.health⟩, rfl, rfl⟩

end Profiles

section Matches

-- A match that is on has two players who stand; one that is over has one.
structure Fought (arena : ArenaState) : Prop where
  apart : arena.challenger ≠ arena.defender
  begun : arena.status ≠ .WaitingForPlayers
  standing : arena.status = .InProgress →
    0 < arena.challengerHp ∧ 0 < arena.defenderHp ∧ arena.winner = arena.challenger
  won : arena.status = .Finished → arena.challengerHp = 0 ∧ 0 < arena.defenderHp ∧ arena.winner = arena.defender ∨
    0 < arena.challengerHp ∧ arena.defenderHp = 0 ∧ arena.winner = arena.challenger
  rounds : arena.round + arena.challengerHp + arena.defenderHp ≤ 1000000000

-- What one blow makes of a match.
structure Struck (arena next : ArenaState) (finished : Bool) : Prop where
  challenger : next.challenger = arena.challenger
  defender : next.defender = arena.defender
  round : next.round = arena.round + 1
  challengerHp : next.challengerHp ≤ arena.challengerHp
  defenderHp : next.defenderHp ≤ arena.defenderHp
  falls : next.challengerHp + next.defenderHp < arena.challengerHp + arena.defenderHp
  ended : finished = true ↔ next.status = .Finished

theorem fought_newMatch {challenger defender : Address} {first second : PlayerProfile}
    (hne : challenger ≠ defender)
    (hfirst : Earned challenger first) (hsecond : Earned defender second) :
    Fought (newMatch challenger defender first second) := by
  obtain ⟨hpos, hle⟩ := hfirst.health_bounds
  obtain ⟨hpos', hle'⟩ := hsecond.health_bounds
  constructor
  · exact hne
  · simp [newMatch]
  · exact fun _ => ⟨hpos, hpos', rfl⟩
  · simp [newMatch]
  · simp only [newMatch]
    omega

theorem fought_settle {arena : ArenaState} (h : Fought arena) (hstatus : arena.status = .InProgress)
    (isChallenger : Bool) {damage : Nat} (hdamage : 0 < damage) :
    let outcome := (arena.strike isChallenger damage (arena.round + 1)).settle
    Fought outcome.1 ∧ Struck arena outcome.1 outcome.2 := by
  obtain ⟨hchallenger, hdefender, hwinner⟩ := h.standing hstatus
  have hrounds := h.rounds
  dsimp only
  cases isChallenger with
  | true =>
      simp only [ArenaState.strike, if_true, ArenaState.settle, if_neg hchallenger.ne']
      split_ifs with hdown
      · refine ⟨⟨h.apart, by simp, by simp, fun _ => Or.inr ⟨hchallenger, hdown, rfl⟩, ?_⟩, ?_⟩
        · dsimp only
          omega
        · exact ⟨rfl, rfl, rfl, Nat.le_refl _, Nat.sub_le _ _, by dsimp only; omega, by simp⟩
      · refine ⟨⟨h.apart, ?_, fun _ => ⟨hchallenger, Nat.pos_of_ne_zero hdown, hwinner⟩, ?_, ?_⟩, ?_⟩
        · simp [hstatus]
        · simp [hstatus]
        · dsimp only
          omega
        · exact ⟨rfl, rfl, rfl, Nat.le_refl _, Nat.sub_le _ _, by dsimp only; omega, by simp [hstatus]⟩
  | false =>
      simp only [ArenaState.strike, Bool.false_eq_true, if_false, ArenaState.settle, if_neg hdefender.ne']
      split_ifs with hdown
      · refine ⟨⟨h.apart, by simp, by simp, fun _ => Or.inl ⟨hdown, hdefender, rfl⟩, ?_⟩, ?_⟩
        · dsimp only
          omega
        · exact ⟨rfl, rfl, rfl, Nat.sub_le _ _, Nat.le_refl _, by dsimp only; omega, by simp⟩
      · refine ⟨⟨h.apart, ?_, fun _ => ⟨Nat.pos_of_ne_zero hdown, hdefender, hwinner⟩, ?_, ?_⟩, ?_⟩
        · simp [hstatus]
        · simp [hstatus]
        · dsimp only
          omega
        · exact ⟨rfl, rfl, rfl, Nat.sub_le _ _, Nat.le_refl _, by dsimp only; omega, by simp [hstatus]⟩

end Matches

section Reachable

-- What the entries of the contract always are, with the players that have a device manager.
structure Sound (storage : KeyStore ContractKey.Value) (managed : Address → Bool) : Prop where
  earned : ∀ address profile, storage.get (.player address) = some profile → Earned address profile
  fought : ∀ arena, storage.get .arena = some arena → Fought arena
  fighters : ∀ arena : ArenaState, storage.get .arena = some arena →
    (storage.get (.player arena.challenger)).isSome ∧ (storage.get (.player arena.defender)).isSome
  queued : ∀ address : Address, storage.get .queue = some address → (storage.get (.player address)).isSome
  permitted : ∀ device, (storage.get (.devicePolicy device)).isSome = (storage.get (.deviceOwner device)).isSome
  owned : ∀ device (player : Address), storage.get (.deviceOwner device) = some player → managed player
  registered : ∀ player, managed player → (storage.get (.player player)).isSome

variable {storage : KeyStore ContractKey.Value} {managed : Address → Bool}

theorem sound_empty : Sound KeyStore.empty fun _ => false := by
  constructor <;> simp [KeyStore.get_empty]

theorem isSome_get_set_player {address other : Address} {profile : PlayerProfile}
    (h : (storage.get (.player other)).isSome) :
    ((storage.set (.player address) profile).get (.player other)).isSome := by
  by_cases hother : other = address
  · subst hother
    rw [KeyStore.get_set_self]
    rfl
  · rw [KeyStore.get_set_of_ne _ _ (by simpa using hother)]
    exact h

theorem Sound.set_player (h : Sound storage managed) {address : Address} {profile : PlayerProfile}
    (hprofile : Earned address profile) : Sound (storage.set (.player address) profile) managed where
  earned other found hfound := by
    by_cases hother : other = address
    · subst hother
      rw [KeyStore.get_set_self] at hfound
      obtain rfl := Option.some.inj hfound
      exact hprofile
    · rw [KeyStore.get_set_of_ne _ _ (by simpa using hother)] at hfound
      exact h.earned other found hfound
  fought arena harena := h.fought arena (by simpa using harena)
  fighters arena harena := by
    obtain ⟨hchallenger, hdefender⟩ := h.fighters arena (by simpa using harena)
    exact ⟨isSome_get_set_player hchallenger, isSome_get_set_player hdefender⟩
  queued other hother := isSome_get_set_player (h.queued other (by simpa using hother))
  permitted device := by simpa using h.permitted device
  owned device player howner := h.owned device player (by simpa using howner)
  registered player hplayer := isSome_get_set_player (h.registered player hplayer)

-- A write to the other entries need only look after what it writes.
theorem Sound.frame (h : Sound storage managed) {storage' : KeyStore ContractKey.Value}
    (hplayers : ∀ address, storage'.get (.player address) = storage.get (.player address))
    (harena : ∀ arena : ArenaState, storage'.get .arena = some arena → storage.get .arena = some arena ∨
      Fought arena ∧ (storage.get (.player arena.challenger)).isSome ∧
      (storage.get (.player arena.defender)).isSome)
    (hqueue : ∀ address : Address, storage'.get .queue = some address → (storage.get (.player address)).isSome)
    (hpermitted : ∀ device, (storage'.get (.devicePolicy device)).isSome =
      (storage'.get (.deviceOwner device)).isSome)
    (howned : ∀ device (player : Address), storage'.get (.deviceOwner device) = some player → managed player) :
    Sound storage' managed where
  earned address profile hfound := h.earned address profile (hplayers address ▸ hfound)
  fought arena hstored := (harena arena hstored).elim (h.fought arena) And.left
  fighters arena hstored := by
    rw [hplayers, hplayers]
    exact (harena arena hstored).elim (h.fighters arena) And.right
  queued address hstored := by
    rw [hplayers]
    exact hqueue address hstored
  permitted := hpermitted
  owned := howned
  registered player hplayer := by
    rw [hplayers]
    exact h.registered player hplayer

theorem Sound.set_arena (h : Sound storage managed) {arena : ArenaState} (harena : Fought arena)
    (hchallenger : (storage.get (.player arena.challenger)).isSome)
    (hdefender : (storage.get (.player arena.defender)).isSome) : Sound (storage.set .arena arena) managed := by
  refine h.frame (by simp) (fun other hother => ?_) (by simpa using h.queued) (by simpa using h.permitted)
    (by simpa using h.owned)
  obtain rfl : arena = other := by simpa using hother
  exact Or.inr ⟨harena, hchallenger, hdefender⟩

theorem Sound.set_queue (h : Sound storage managed) {player : Address}
    (hplayer : (storage.get (.player player)).isSome) : Sound (storage.set .queue player) managed := by
  refine h.frame (by simp) (fun arena harena => Or.inl (by simpa using harena)) (fun address haddress => ?_)
    (by simpa using h.permitted) (by simpa using h.owned)
  obtain rfl : player = address := by simpa using haddress
  exact hplayer

theorem Sound.remove_queue (h : Sound storage managed) : Sound (storage.remove .queue) managed :=
  h.frame (by simp) (fun arena harena => Or.inl (by simpa using harena)) (by simp) (by simpa using h.permitted)
    (by simpa using h.owned)

theorem Sound.add_device (h : Sound storage managed) {player device : Address} (policy : DevicePolicyEntry)
    (hplayer : managed player) :
    Sound ((storage.set (.devicePolicy device) policy).set (.deviceOwner device) player) managed := by
  refine h.frame (by simp) (fun arena harena => Or.inl (by simpa using harena)) (by simpa using h.queued) ?_ ?_
  · intro other
    by_cases hother : other = device
    · subst hother
      simp
    · simpa [hother] using h.permitted other
  · intro other owner howner
    by_cases hother : other = device
    · subst hother
      obtain rfl : player = owner := by simpa using howner
      exact hplayer
    · exact h.owned other owner (by simpa [hother] using howner)

theorem Sound.remove_device (h : Sound storage managed) (device : Address) :
    Sound ((storage.remove (.devicePolicy device)).remove (.deviceOwner device)) managed := by
  refine h.frame (by simp) (fun arena harena => Or.inl (by simpa using harena)) (by simpa using h.queued) ?_ ?_
  · intro other
    by_cases hother : other = device
    · subst hother
      simp
    · simpa [hother] using h.permitted other
  · intro other owner howner
    by_cases hother : other = device
    · subst hother
      simp at howner
    · exact h.owned other owner (by simpa [hother] using howner)

theorem Sound.register (h : Sound storage managed) (player : Address) :
    Sound (storage.set (.player player) (newProfile player)) fun other =>
    decide (other = player) || managed other :=
  have hset := h.set_player (earned_newProfile player)
  { hset with
    owned := fun device owner howner => by
      rw [hset.owned device owner howner, Bool.or_true]
    registered := fun other hother => by
      by_cases hsame : other = player
      · subst hsame
        rw [KeyStore.get_set_self]
        rfl
      · exact hset.registered other (by simpa [hsame] using hother) }

end Reachable

section Steps

variable {env next : ContractEnv}

theorem Blow.struck (h : Sound env.storage env.managed) {device : Address} {action : CombatAction}
    {arena : ArenaState} {outcome : ArenaState × Bool} (hblow : Blow env device action arena outcome) :
    Fought outcome.1 ∧ Struck arena outcome.1 outcome.2 := by
  obtain ⟨player, challenger, defender, damage, _, _, _, _, _, hdamage, _, rfl⟩ := hblow.dealt
  refine fought_settle (h.fought arena hblow.stored) hblow.inProgress _ ?_
  split_ifs at hdamage <;> exact computeDamage_pos hdamage

-- The loser of a finished match is the other player.
theorem sound_updateRatings (h : Sound env.storage env.managed) {arena : ArenaState}
    (hrated : updateRatings env arena = some next) : Sound next.storage next.managed := by
  obtain ⟨winner, won, lost, gone, hwinner, hlost, hwon, hgone, rfl⟩ := updateRatings_eq_some_iff.mp hrated
  have hbetter := (earned_recordWin (h.earned _ _ hwinner) hwon).1
  have hworse := (earned_recordLoss (h.earned _ _ hlost) hgone).1
  exact (h.set_player hbetter).set_player hworse

theorem isSome_player_updateRatings {arena : ArenaState} (hrated : updateRatings env arena = some next)
    {address : Address} (h : (env.storage.get (.player address)).isSome) :
    (next.storage.get (.player address)).isSome := by
  obtain ⟨winner, won, lost, gone, _, _, _, _, rfl⟩ := updateRatings_eq_some_iff.mp hrated
  exact isSome_get_set_player (isSome_get_set_player h)

theorem sound_submitAction (h : Sound env.storage env.managed) {device : Address} {action : CombatAction}
    {result : RoundResult} (hsubmit : submitAction env device action = some (result, next)) :
    Sound next.storage next.managed := by
  obtain ⟨arena, outcome, hblow, hconclude⟩ := submitAction_eq_some_iff.mp hsubmit
  obtain ⟨hfought, hstruck⟩ := hblow.struck h
  obtain ⟨_, rated, hrated, rfl⟩ := conclude_eq_some_iff.mp hconclude
  obtain ⟨hchallenger, hdefender⟩ := h.fighters arena hblow.stored
  rw [← hstruck.challenger] at hchallenger
  rw [← hstruck.defender] at hdefender
  split_ifs at hrated
  · have hlogged : Sound (env.logged device).storage (env.logged device).managed := h
    exact (sound_updateRatings hlogged hrated).set_arena hfought (isSome_player_updateRatings hrated hchallenger)
      (isSome_player_updateRatings hrated hdefender)
  · obtain rfl := Option.some.inj hrated
    exact h.set_arena hfought hchallenger hdefender

theorem sound_startMatch (h : Sound env.storage env.managed) {device : Address}
    (hstart : startMatch env device = some next) : Sound next.storage next.managed := by
  obtain ⟨_, player, profile, _, _, hprofile, hrest⟩ := startMatch_eq_some_iff.mp hstart
  have hplayer : (env.storage.get (.player player)).isSome := by
    rw [← ContractEnv.get, hprofile]
    rfl
  rcases hrest with ⟨_, rfl⟩ | ⟨challenger, other, _, hne, hother, rfl⟩
  · exact h.set_queue hplayer
  · have hchallenger : (env.storage.get (.player challenger)).isSome := by
      rw [← ContractEnv.get, hother]
      rfl
    have hfought := fought_newMatch hne (h.earned _ _ hother) (h.earned _ _ hprofile)
    exact (h.set_arena hfought hchallenger hplayer).remove_queue

theorem sound_finalizeRecovery (h : Sound env.storage env.managed) {player : Address}
    (hfinal : finalizeRecovery env player = some next) : Sound next.storage next.managed := by
  obtain ⟨hstorage, hmanaged⟩ := finalizeRecovery_spec hfinal
  rw [funext hmanaged]
  rcases hstorage with hsame | ⟨profile, newOwner, hprofile, _, hset⟩
  · rw [hsame]
    exact h
  · rw [hset]
    exact h.set_player (h.earned _ _ hprofile).renamed

theorem sound_invoke (toString : Address → Bytes) (h : Sound env.storage env.managed) (call : ContractCall)
    (hcall : call.invoke toString env = some next) : Sound next.storage next.managed := by
  obtain ⟨timestamp, authorized, op⟩ := call
  cases op with
  | registerPlayer player guardians threshold timelock =>
      obtain ⟨hstorage, hmanaged⟩ := registerPlayer_spec hcall
      rw [hstorage, funext hmanaged]
      exact h.register player
  | addDevice player device policy =>
      obtain ⟨hplayer, hstorage, hmanaged⟩ := addDevice_spec hcall
      rw [hstorage, funext hmanaged]
      exact h.add_device policy hplayer
  | removeDevice player device =>
      obtain ⟨hstorage, hmanaged⟩ := removeDevice_spec hcall
      rw [hstorage, funext hmanaged]
      exact h.remove_device device
  | startMatch device => exact sound_startMatch h hcall
  | submitAction device action =>
      obtain ⟨⟨result, _⟩, hsubmit, rfl⟩ := Option.map_eq_some_iff.mp hcall
      exact sound_submitAction h hsubmit
  | initiateRecovery guardian player newKey =>
      obtain ⟨hstorage, hmanaged⟩ := initiateRecovery_spec hcall
      rw [hstorage, funext hmanaged]
      exact h
  | approveRecovery guardian player newKey =>
      obtain ⟨hstorage, hmanaged⟩ := approveRecovery_spec hcall
      rw [hstorage, funext hmanaged]
      exact h
  | finalizeRecovery player => exact sound_finalizeRecovery h hcall

-- The players that the stored entries give a device manager.
def Entries.managed (entries : Entries) (player : Address) : Bool :=
  (entries.accounts.get (.devPolicy player)).isSome

theorem sound_step (toString : Address → Bytes) (entries : Entries) (call : ContractCall)
    (h : Sound entries.storage entries.managed) :
    Sound (call.step toString entries).storage (call.step toString entries).managed := by
  rw [ContractCall.step]
  cases hcall : call.invoke toString (call.env entries) with
  | none => exact h
  | some next =>
      have hbefore : Sound (call.env entries).storage (call.env entries).managed := h
      have hafter := sound_invoke toString hbefore call hcall
      exact hafter

end Steps

end Cougr.GuildArena
