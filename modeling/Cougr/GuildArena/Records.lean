import Cougr.GuildArena.Access

namespace Cougr.GuildArena

open Accounts ContractEnv Transition ContractCall

def opponent (arena : ArenaState) (address : Address) : Address :=
  if address = arena.challenger then arena.defender else arena.challenger

-- The winner and the loser of the match that a call ends.
def ContractCall.decided (entries : Entries) (call : ContractCall) : List (Address × Address) :=
  match (entries.storage.get .arena : Option ArenaState) with
  | some arena =>
    ((call.results entries).filter RoundResult.finished).map fun result =>
      (result.winner, opponent arena result.winner)
  | none => []

-- The call makes a new profile for the player: a registration, or a recovery that ends at the player's address.
def ContractCall.Renews (toString : Address → Bytes) (player : Address) (entries : Entries)
    (call : ContractCall) : Prop :=
  call.Accepted toString entries ∧
    ((∃ guardians threshold timelock, call.op = .registerPlayer player guardians threshold timelock) ∨
      ∃ old, call.op = .finalizeRecovery old ∧
        ((RecoverableAccount.load old).executeRecovery (call.env entries).accounts).1 = .ok player)

-- A profile after further matches.
structure Counted (profile final : PlayerProfile) (won lost : Nat) : Prop where
  wins : final.record.wins = profile.record.wins + won
  losses : final.record.losses = profile.record.losses + lost

theorem Counted.refl (profile : PlayerProfile) : Counted profile profile 0 0 := ⟨rfl, rfl⟩

theorem Counted.trans {first second third : PlayerProfile} {won lost won' lost' : Nat}
    (h : Counted first second won lost) (h' : Counted second third won' lost') :
    Counted first third (won + won') (lost + lost') :=
  ⟨by rw [h'.wins, h.wins, Nat.add_assoc], by rw [h'.losses, h.losses, Nat.add_assoc]⟩

section Step

variable {env next : ContractEnv} {player : Address} {profile : PlayerProfile}

-- The two of a match are rated apart.
theorem counted_updateRatings (h : Sound env.storage env.managed) {arena : ArenaState} (hfought : Fought arena)
    (hrated : updateRatings env arena = some next) (hplayer : env.get (.player player) = some profile) :
    ∃ final : PlayerProfile, next.get (.player player) = some final ∧
      Counted profile final (if arena.winner = player then 1 else 0) (if loser arena = player then 1 else 0) := by
  obtain ⟨winner, won, lost, gone, hwinner, hlost, hwon, hgone, rfl⟩ := updateRatings_eq_some_iff.mp hrated
  have hapart : arena.winner ≠ loser arena := by
    rw [loser]
    split_ifs with hchallenger
    · rw [hchallenger]
      exact hfought.apart
    · exact hchallenger
  obtain ⟨_, hwins, hsame⟩ := earned_recordWin (h.earned _ _ hwinner) hwon
  obtain ⟨_, hsame', hlosses⟩ := earned_recordLoss (h.earned _ _ hlost) hgone
  simp only [ContractEnv.get, ContractEnv.set]
  by_cases hloser : loser arena = player
  · subst hloser
    rw [KeyStore.get_set_self, if_neg hapart, if_pos rfl]
    obtain rfl := Option.some.inj (hplayer.symm.trans hlost)
    exact ⟨gone, rfl, hsame', hlosses⟩
  · rw [KeyStore.get_set_of_ne _ _ (by simpa using Ne.symm hloser), if_neg hloser]
    by_cases hwin : arena.winner = player
    · subst hwin
      rw [KeyStore.get_set_self, if_pos rfl]
      obtain rfl := Option.some.inj (hplayer.symm.trans hwinner)
      exact ⟨won, rfl, hwins, hsame⟩
    · rw [KeyStore.get_set_of_ne _ _ (by simpa using Ne.symm hwin), if_neg hwin]
      exact ⟨profile, hplayer, .refl profile⟩

theorem counted_submitAction (h : Sound env.storage env.managed) {device : Address} {action : CombatAction}
    {result : RoundResult} (hsubmit : submitAction env device action = some (result, next))
    (hplayer : env.get (.player player) = some profile) :
    ∃ (arena : ArenaState) (final : PlayerProfile), env.get .arena = some arena ∧
      next.get (.player player) = some final ∧
      Counted profile final (if result.finished ∧ result.winner = player then 1 else 0)
        (if result.finished ∧ opponent arena result.winner = player then 1 else 0) := by
  obtain ⟨arena, outcome, hblow, hconclude⟩ := submitAction_eq_some_iff.mp hsubmit
  obtain ⟨hfought, hstruck⟩ := hblow.struck h
  obtain ⟨rfl, rated, hrated, rfl⟩ := conclude_eq_some_iff.mp hconclude
  have hloser : loser outcome.1 = opponent arena outcome.1.winner := by
    rw [loser, hstruck.challenger, hstruck.defender, opponent]
  have hkept (final : PlayerProfile) (hfinal : rated.get (.player player) = some final) :
      (rated.set .arena outcome.1).get (.player player) = some final :=
    (KeyStore.get_set_of_ne _ _ (by simp)).trans hfinal
  split_ifs at hrated with hfinished
  · have hlogged : Sound (env.logged device).storage (env.logged device).managed := h
    obtain ⟨final, hfinal, hcounted⟩ := counted_updateRatings hlogged hfought hrated hplayer
    refine ⟨arena, final, hblow.stored, hkept final hfinal, ?_⟩
    simpa only [resultOf, hfinished, true_and, ← hloser] using hcounted
  · obtain rfl := Option.some.inj hrated
    refine ⟨arena, profile, hblow.stored, hkept profile hplayer, ?_⟩
    simpa only [resultOf, hfinished, Bool.false_eq_true, false_and, if_false] using Counted.refl profile

variable {toString : Address → Bytes} {entries : Entries} {call : ContractCall}

theorem decided_of_results_nil (h : call.results entries = []) : call.decided entries = [] := by
  rw [decided, h]
  split <;> rfl

theorem decided_of_results {arena : ArenaState} {result : RoundResult}
    (harena : entries.storage.get .arena = some arena) (hresults : call.results entries = [result]) :
    call.decided entries = if result.finished then [(result.winner, opponent arena result.winner)] else [] := by
  rw [decided, harena, hresults]
  simp only [List.filter_cons, List.filter_nil]
  split_ifs <;> rfl

theorem record_step (h : Sound entries.storage entries.managed)
    (hplayer : entries.storage.get (.player player) = some profile)
    (hrenews : ¬call.Renews toString player entries) :
    ∃ final : PlayerProfile, (call.step toString entries).storage.get (.player player) = some final ∧
      Counted profile final ((call.decided entries).countP (·.1 = player))
        ((call.decided entries).countP (·.2 = player)) := by
  have hsound : Sound (call.env entries).storage (call.env entries).managed := h
  by_cases hacts : ∃ device action, call.op = .submitAction device action ∧ call.Accepted toString entries
  · obtain ⟨device, action, hop, haccepted⟩ := hacts
    obtain ⟨result, next, hsubmit, hresults, hstep⟩ := submitAction_of_accepted hop haccepted
    obtain ⟨arena, final, harena, hfinal, hcounted⟩ := counted_submitAction hsound hsubmit hplayer
    rw [hstep, decided_of_results harena hresults]
    refine ⟨final, hfinal, ?_⟩
    cases hfinished : result.finished with
    | false => simpa [hfinished] using hcounted
    | true => simpa [hfinished, List.countP_singleton] using hcounted
  · rw [decided_of_results_nil (results_of_idle hacts)]
    refine ⟨profile, ?_, .refl profile⟩
    rcases get_step toString entries call (.player player) with hkept | ⟨haccepted, hwrites⟩
    · exact hkept.trans hplayer
    · cases hwrites with
      | registered hop => exact absurd ⟨haccepted, Or.inl ⟨_, _, _, hop⟩⟩ hrenews
      | rated hop => exact absurd ⟨_, _, hop, haccepted⟩ hacts
      | recovered hop hok => exact absurd ⟨haccepted, Or.inr ⟨_, hop, hok⟩⟩ hrenews

end Step

-- The record of a player counts the matches: as long as the profile is not made anew, a win is added for
-- every match that ends in the player's favour and a loss for every one that ends against the player, and
-- nothing else is.
theorem record_counts_matches (toString : Address → Bytes) (past rest : List ContractCall) (player : Address)
    (profile : PlayerProfile) (hplayer : (entriesAfter toString past).storage.get (.player player) = some profile)
    (hkept : StepsMeet (ContractCall.step toString) (fun entries call => ¬call.Renews toString player entries)
      (entriesAfter toString past) rest) :
    let decisions := emitted (ContractCall.step toString) ContractCall.decided (entriesAfter toString past) rest
    ∃ final : PlayerProfile, (entriesAfter toString (past ++ rest)).storage.get (.player player) = some final ∧
      Counted profile final (decisions.countP (·.1 = player)) (decisions.countP (·.2 = player)) := by
  induction rest using List.reverseRecOn with
  | nil =>
      rw [List.append_nil]
      exact ⟨profile, hplayer, .refl profile⟩
  | append_singleton rest call ih =>
      obtain ⟨hrest, hcall⟩ := (stepsMeet_concat _ rest call).mp hkept
      obtain ⟨middle, hmiddle, hbefore⟩ := ih hrest
      have hreached : run (ContractCall.step toString) (entriesAfter toString past) rest =
          entriesAfter toString (past ++ rest) := (run_append ..).symm
      have hsound : Sound (entriesAfter toString (past ++ rest)).storage
          (entriesAfter toString (past ++ rest)).managed := sound_run sound_empty (past ++ rest)
      rw [hreached] at hcall
      obtain ⟨final, hfinal, hafter⟩ := record_step hsound hmiddle hcall
      dsimp only
      rw [emitted_concat, hreached, List.countP_append, List.countP_append, ← List.append_assoc,
        entriesAfter, run_concat, ← entriesAfter]
      exact ⟨final, hfinal, hbefore.trans hafter⟩

-- The sixth blow ends the match.
theorem champion_counts_win :
    let decisions := emitted (ContractCall.step characters) ContractCall.decided (entriesAfter characters matched)
      (List.replicate 6 (special tablet))
    ∃ final : PlayerProfile, (entriesAfter characters (matched ++ List.replicate 6 (special tablet))).storage.get
        (.player champion) = some final ∧
      Counted (newProfile champion) final (decisions.countP (·.1 = champion))
        (decisions.countP (·.2 = champion)) := by
  have hacts (entries : Entries) : ¬(special tablet).Renews characters champion entries := by
    rintro ⟨_, ⟨_, _, _, h⟩ | ⟨_, h, _⟩⟩
    · cases h
    · cases h
  exact record_counts_matches characters matched (List.replicate 6 (special tablet)) champion _ rfl
    ⟨hacts _, hacts _, hacts _, hacts _, hacts _, hacts _, trivial⟩

end Cougr.GuildArena
