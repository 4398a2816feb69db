import Cougr.GuildArena.Matches

namespace Cougr.GuildArena

open Accounts ContractEnv Transition ContractCall

section Answers

variable {env : ContractEnv} {address : Address} {profile : PlayerProfile}

theorem exists_computeDamage (h : Earned address profile) (defense : Nat) (action : CombatAction) :
    ∃ damage, computeDamage profile.fighter.attack defense action = some damage := by
  have hattack := h.attack
  have hrating := h.rating
  have hfits := h.fits
  have hbase : (if profile.fighter.attack > defense then profile.fighter.attack - defense else 1) + 12 ≤
      u32Max := by
    unfold u32Max at hfits ⊢
    split_ifs <;> omega
  cases action with
  | Attack => exact ⟨_, checkedAdd_eq_some_iff.mpr ⟨rfl, by omega⟩⟩
  | Defend => exact ⟨_, rfl⟩
  | Special => exact ⟨_, checkedAdd_eq_some_iff.mpr ⟨rfl, hbase⟩⟩

theorem exists_levelUp (h : Earned address profile) (wins : Nat) :
    ∃ leveled, levelUp wins profile.fighter = some leveled := by
  have hlevel := h.level
  have hattack := h.attack
  have hdefense := h.defense
  have hhealth := h.health
  have hrating := h.rating
  have hfits := h.fits
  have hmax : u32Max = 4294967295 := rfl
  rw [levelUp]
  split_ifs
  · exact ⟨_, Option.bind_eq_some_iff.mpr ⟨_, checkedAdd_eq_some_iff.mpr ⟨rfl, by omega⟩,
      Option.bind_eq_some_iff.mpr ⟨_, checkedAdd_eq_some_iff.mpr ⟨rfl, by omega⟩,
        Option.bind_eq_some_iff.mpr ⟨_, checkedAdd_eq_some_iff.mpr ⟨rfl, by omega⟩,
          Option.bind_eq_some_iff.mpr ⟨_, checkedAdd_eq_some_iff.mpr ⟨rfl, by omega⟩, rfl⟩⟩⟩⟩⟩
  · exact ⟨_, rfl⟩

theorem exists_recordWin (h : Earned address profile) (hroom : profile.record.rating + 32 ≤ u32Max) :
    ∃ won, recordWin profile = some won := by
  have hrating := h.rating
  obtain ⟨leveled, hleveled⟩ := exists_levelUp h (profile.record.wins + 1)
  refine ⟨_, Option.bind_eq_some_iff.mpr ⟨_, checkedAdd_eq_some_iff.mpr ⟨rfl, by omega⟩,
    Option.bind_eq_some_iff.mpr ⟨_, checkedAdd_eq_some_iff.mpr ⟨rfl, hroom⟩,
      Option.bind_eq_some_iff.mpr ⟨leveled, hleveled, rfl⟩⟩⟩⟩

theorem exists_recordLoss (hroom : profile.record.losses + 1 ≤ u32Max) : ∃ lost, recordLoss profile = some lost :=
  ⟨_, Option.bind_eq_some_iff.mpr ⟨_, checkedAdd_eq_some_iff.mpr ⟨rfl, hroom⟩, rfl⟩⟩

-- No counter of a profile is at its limit.
def Room (storage : KeyStore ContractKey.Value) : Prop :=
  ∀ (address : Address) (profile : PlayerProfile), storage.get (.player address) = some profile →
    profile.record.rating + 32 ≤ u32Max ∧ profile.record.losses + 1 ≤ u32Max

theorem exists_updateRatings (h : Sound env.storage env.managed) (hroom : Room env.storage) {arena : ArenaState}
    (hchallenger : (env.storage.get (.player arena.challenger)).isSome)
    (hdefender : (env.storage.get (.player arena.defender)).isSome)
    (hwinner : arena.winner = arena.challenger ∨ arena.winner = arena.defender) :
    ∃ rated, updateRatings env arena = some rated := by
  have hplayer : ∀ address, address = arena.challenger ∨ address = arena.defender →
      ∃ profile : PlayerProfile, env.get (.player address) = some profile := by
    rintro address (rfl | rfl)
    · exact Option.isSome_iff_exists.mp hchallenger
    · exact Option.isSome_iff_exists.mp hdefender
  have hloser : loser arena = arena.challenger ∨ loser arena = arena.defender := by
    rw [loser]
    split_ifs
    · exact Or.inr rfl
    · exact Or.inl rfl
  obtain ⟨winner, hfound⟩ := hplayer _ hwinner
  obtain ⟨lost, hlost⟩ := hplayer _ hloser
  obtain ⟨won, hwon⟩ := exists_recordWin (h.earned _ _ hfound) (hroom _ _ hfound).1
  obtain ⟨gone, hgone⟩ := exists_recordLoss (hroom _ _ hlost).2
  exact ⟨_, updateRatings_eq_some_iff.mpr ⟨winner, won, lost, gone, hfound, hlost, hwon, hgone, rfl⟩⟩

variable (env) in
theorem isSome_startMatch_iff (h : Sound env.storage env.managed) (device : Address) :
    (startMatch env device).isSome ↔ env.accounts.authorized device ∧ ∃ player : Address,
      env.get (.deviceOwner device) = some player ∧ env.get .queue ≠ some player := by
  rw [Option.isSome_iff_exists]
  simp only [startMatch_eq_some_iff]
  constructor
  · rintro ⟨_, hauth, player, _, howner, _, _, hrest⟩
    refine ⟨hauth, player, howner, ?_⟩
    rcases hrest with ⟨hqueue, _⟩ | ⟨challenger, _, hqueue, hne, _⟩
    · rw [hqueue]
      exact (Option.some_ne_none player).symm
    · rw [hqueue]
      exact fun heq => hne (Option.some.inj heq)
  · rintro ⟨hauth, player, howner, hqueue⟩
    have hpolicy : (env.get (.devicePolicy device)).isSome := by
      have hsame := h.permitted device
      rw [← ContractEnv.get, ← ContractEnv.get, howner] at hsame
      exact hsame
    obtain ⟨profile, hprofile⟩ := Option.isSome_iff_exists.mp (h.registered player (h.owned device player howner))
    cases hwaiting : (env.get .queue : Option Address) with
    | none => exact ⟨_, hauth, player, profile, howner, hpolicy, hprofile, Or.inl ⟨rfl, rfl⟩⟩
    | some challenger =>
        obtain ⟨other, hother⟩ := Option.isSome_iff_exists.mp (h.queued challenger hwaiting)
        have hne : challenger ≠ player := by
          rintro rfl
          exact hqueue hwaiting
        exact ⟨_, hauth, player, profile, howner, hpolicy, hprofile,
          Or.inr ⟨challenger, other, rfl, hne, hother, rfl⟩⟩

variable (env) in
theorem isSome_submitAction_iff (h : Sound env.storage env.managed) (hroom : Room env.storage) (device : Address)
    (action : CombatAction) :
    (submitAction env device action).isSome ↔ env.accounts.authorized device ∧
      ∃ (player : Address) (arena : ArenaState),
      env.get (.deviceOwner device) = some player ∧ env.get .arena = some arena ∧ arena.status = .InProgress ∧
      (arena.challenger = player ∨ arena.defender = player) := by
  rw [Option.isSome_iff_exists]
  constructor
  · rintro ⟨⟨_, _⟩, hsubmit⟩
    obtain ⟨arena, _, hblow, _⟩ := submitAction_eq_some_iff.mp hsubmit
    obtain ⟨player, _, _, _, howner, _, hpart, _⟩ := hblow.dealt
    exact ⟨hblow.authorized, player, arena, howner, hblow.stored, hblow.inProgress, hpart⟩
  · rintro ⟨hauth, player, arena, howner, harena, hstatus, hpart⟩
    have hpolicy : (env.get (.devicePolicy device)).isSome := by
      have hsame := h.permitted device
      rw [← ContractEnv.get, ← ContractEnv.get, howner] at hsame
      exact hsame
    obtain ⟨hchallenger, hdefender⟩ := h.fighters arena harena
    obtain ⟨challenger, hfirst⟩ := Option.isSome_iff_exists.mp hchallenger
    obtain ⟨defender, hsecond⟩ := Option.isSome_iff_exists.mp hdefender
    obtain ⟨damage, hdamage⟩ : ∃ damage, (if arena.challenger = player then
        computeDamage challenger.fighter.attack defender.fighter.defense action
        else computeDamage defender.fighter.attack challenger.fighter.defense action) = some damage := by
      split_ifs
      · exact exists_computeDamage (h.earned _ _ hfirst) _ action
      · exact exists_computeDamage (h.earned _ _ hsecond) _ action
    have hrounds := (h.fought arena harena).rounds
    have hblow : Blow env device action arena _ :=
      ⟨hauth, harena, hstatus, player, challenger, defender, damage, howner,
      hpolicy, hpart, hfirst, hsecond, hdamage, by unfold u32Max; omega, rfl⟩
    obtain ⟨hfought, hstruck⟩ := hblow.struck h
    generalize (arena.strike (decide (arena.challenger = player)) damage (arena.round + 1)).settle = outcome
      at hblow hfought hstruck
    have hlogged : Sound (env.logged device).storage (env.logged device).managed := h
    obtain ⟨rated, hrated⟩ : ∃ rated, (if outcome.2 then updateRatings (env.logged device) outcome.1
        else some (env.logged device)) = some rated := by
      split_ifs with hfinished
      · refine exists_updateRatings hlogged hroom (hstruck.challenger ▸ hchallenger)
          (hstruck.defender ▸ hdefender) ?_
        rcases hfought.won (hstruck.ended.mp hfinished) with hwon | hwon
        · exact Or.inr hwon.2.2
        · exact Or.inl hwon.2.2
      · exact ⟨_, rfl⟩
    exact ⟨_, submitAction_eq_some_iff.mpr
      ⟨arena, outcome, hblow, conclude_eq_some_iff.mpr ⟨rfl, rated, hrated, rfl⟩⟩⟩

end Answers

section Devices

-- The call adds the device or removes it.
def ContractCall.Touches (toString : Address → Bytes) (device : Address) (entries : Entries)
    (call : ContractCall) : Prop :=
  call.Accepted toString entries ∧
    ((∃ player policy, call.op = .addDevice player device policy) ∨
      ∃ player, call.op = .removeDevice player device)

variable {toString : Address → Bytes} {entries : Entries} {call : ContractCall} {device : Address}

theorem deviceOwner_step (h : ¬call.Touches toString device entries) :
    (call.step toString entries).storage.get (.deviceOwner device) =
      entries.storage.get (.deviceOwner device) := by
  rcases get_step toString entries call (.deviceOwner device) with hkept | ⟨haccepted, hwrites⟩
  · exact hkept
  · cases hwrites with
    | ownerSet hop => exact absurd ⟨haccepted, Or.inl ⟨_, _, hop⟩⟩ h
    | ownerRemoved hop => exact absurd ⟨haccepted, Or.inr ⟨_, hop⟩⟩ h

-- The device was added for the player, and nobody has added or removed it since.
def ActsFor (toString : Address → Bytes) (calls : List ContractCall) (device player : Address) : Prop :=
  ∃ past call rest policy, calls = past ++ call :: rest ∧ call.op = .addDevice player device policy ∧
    call.Accepted toString (entriesAfter toString past) ∧
    StepsMeet (ContractCall.step toString) (fun entries call => ¬call.Touches toString device entries)
      (entriesAfter toString (past ++ [call])) rest

theorem deviceOwner_add {player : Address} {policy : DevicePolicyEntry}
    (hop : call.op = .addDevice player device policy) (haccepted : call.Accepted toString entries) :
    (call.step toString entries).storage.get (.deviceOwner device) = some player := by
  obtain ⟨next, hcall⟩ := Option.isSome_iff_exists.mp haccepted
  rw [ContractCall.step, hcall]
  rw [ContractCall.invoke, hop] at hcall
  obtain ⟨_, hstorage, _⟩ := addDevice_spec hcall
  dsimp only
  rw [hstorage, KeyStore.get_set_self]

theorem deviceOwner_remove {player : Address} (hop : call.op = .removeDevice player device)
    (haccepted : call.Accepted toString entries) :
    (call.step toString entries).storage.get (.deviceOwner device) = none := by
  obtain ⟨next, hcall⟩ := Option.isSome_iff_exists.mp haccepted
  rw [ContractCall.step, hcall]
  rw [ContractCall.invoke, hop] at hcall
  obtain ⟨hstorage, _⟩ := removeDevice_spec hcall
  dsimp only
  rw [hstorage]
  simp

theorem deviceOwner_iff (toString : Address → Bytes) (calls : List ContractCall) (device player : Address) :
    (entriesAfter toString calls).storage.get (.deviceOwner device) = some player ↔
      ActsFor toString calls device player := by
  constructor
  · intro hmember
    have hstep : ∀ (entries : Entries) (call : ContractCall) (player : Address),
        (call.step toString entries).storage.get (.deviceOwner device) = some player →
          (∃ policy, call.op = .addDevice player device policy ∧ call.Accepted toString entries) ∨
          entries.storage.get (.deviceOwner device) = some player ∧ ¬call.Touches toString device entries := by
      intro entries call player hafter
      by_cases htouches : call.Touches toString device entries
      · obtain ⟨haccepted, ⟨owner, policy, hop⟩ | ⟨owner, hop⟩⟩ := htouches
        · rw [deviceOwner_add hop haccepted] at hafter
          obtain rfl := Option.some.inj hafter
          exact Or.inl ⟨policy, hop, haccepted⟩
        · rw [deviceOwner_remove hop haccepted] at hafter
          cases hafter
      · rw [deviceOwner_step htouches] at hafter
        exact Or.inr ⟨hafter, htouches⟩
    obtain ⟨past, call, rest, rfl, ⟨policy, hop, haccepted⟩, hrest⟩ := run_provenance
      (fun (entries : Entries) (player : Address) => entries.storage.get (.deviceOwner device) = some player) _ _
      (by simp [nothingStored, KeyStore.get_empty]) hstep calls player hmember
    exact ⟨past, call, rest, policy, rfl, hop, haccepted, hrest⟩
  · rintro ⟨past, call, rest, policy, rfl, hop, haccepted, hrest⟩
    have hadded : (entriesAfter toString (past ++ [call])).storage.get (.deviceOwner device) = some player := by
      rw [entriesAfter, run_concat]
      exact deviceOwner_add hop haccepted
    have hkept := run_invariant (fun entries : Entries => entries.storage.get (.deviceOwner device) = some player)
      (fun entries call hbefore htouches => (deviceOwner_step htouches).trans hbefore) hadded rest hrest
    rwa [entriesAfter, ← run_append, List.append_assoc] at hkept

end Devices

section Calls

variable (toString : Address → Bytes) (calls : List ContractCall) (timestamp : Nat) (authorized : Address → Bool)
  (device : Address)

-- Who may look for a match: the devices of the players that do not wait for one already.
theorem startMatch_answered_iff :
    ContractCall.Accepted toString (entriesAfter toString calls) ⟨timestamp, authorized, .startMatch device⟩ ↔
      authorized device ∧ ∃ player, ActsFor toString calls device player ∧
        (entriesAfter toString calls).storage.get .queue ≠ some player := by
  have hsound : Sound (entriesAfter toString calls).storage (entriesAfter toString calls).managed :=
    sound_run sound_empty calls
  simp only [← deviceOwner_iff]
  exact isSome_startMatch_iff (ContractCall.env _ ⟨timestamp, authorized, .startMatch device⟩) hsound device

-- Who may act: the devices of the two players of the match that is on, round after round.
theorem submitAction_answered_iff (action : CombatAction) (hroom : Room (entriesAfter toString calls).storage) :
    ContractCall.Accepted toString (entriesAfter toString calls)
    ⟨timestamp, authorized, .submitAction device action⟩ ↔
      authorized device ∧ ∃ (player : Address) (arena : ArenaState), ActsFor toString calls device player ∧
        (entriesAfter toString calls).storage.get .arena = some arena ∧ arena.status = .InProgress ∧
        (arena.challenger = player ∨ arena.defender = player) := by
  have hsound : Sound (entriesAfter toString calls).storage (entriesAfter toString calls).managed :=
    sound_run sound_empty calls
  simp only [← deviceOwner_iff]
  rw [ContractCall.Accepted, ContractCall.invoke, Option.isSome_map]
  exact isSome_submitAction_iff (ContractCall.env _ ⟨timestamp, authorized, .submitAction device action⟩) hsound
    hroom device action

end Calls

theorem room_matched : Room (entriesAfter characters matched).storage := by
  have hstorage : (entriesAfter characters matched).storage =
      ((((((((KeyStore.empty.set (.player champion) (newProfile champion)).set (.devicePolicy tablet)
        ⟨.PlayOnly⟩).set
        (.deviceOwner tablet) champion).set .queue champion).set (.player rival) (newProfile rival)).set
        (.devicePolicy laptop) ⟨.PlayOnly⟩).set (.deviceOwner laptop) rival).set .arena
        (newMatch champion rival (newProfile champion) (newProfile rival))).remove .queue := rfl
  intro address profile hprofile
  rw [hstorage] at hprofile
  by_cases hrival : address = rival
  · subst hrival
    obtain rfl : newProfile rival = profile := by simpa using hprofile
    decide
  · by_cases hchampion : address = champion
    · subst hchampion
      obtain rfl : newProfile champion = profile := by simpa [hrival] using hprofile
      decide
    · simp [hrival, hchampion, KeyStore.get_empty] at hprofile

theorem rival_answered :
    ContractCall.Accepted characters (entriesAfter characters matched)
        ⟨0, fun _ => true, .submitAction laptop .Special⟩ ↔
      true ∧ ∃ (player : Address) (arena : ArenaState), ActsFor characters matched laptop player ∧
        (entriesAfter characters matched).storage.get .arena = some arena ∧ arena.status = .InProgress ∧
        (arena.challenger = player ∨ arena.defender = player) :=
  submitAction_answered_iff characters matched 0 (fun _ => true) laptop .Special room_matched

end Cougr.GuildArena
