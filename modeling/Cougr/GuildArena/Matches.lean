import Cougr.GuildArena.Invariants

namespace Cougr.GuildArena

open Accounts ContractEnv Transition

variable {toString : Address → Bytes} {entries : Entries} {call : ContractCall}

def entriesAfter (toString : Address → Bytes) (calls : List ContractCall) : Entries :=
  run (ContractCall.step toString) nothingStored calls

theorem sound_run (h : Sound entries.storage entries.managed) (calls : List ContractCall) :
    Sound (run (ContractCall.step toString) entries calls).storage
      (run (ContractCall.step toString) entries calls).managed :=
  run_invariant_of_step (fun entries : Entries => Sound entries.storage entries.managed)
    (sound_step toString) h calls

-- Whatever is called in whatever order: the profiles are earned, the match has been fought by two players,
-- and the devices that may act belong to players.
theorem entries_sound (toString : Address → Bytes) (calls : List ContractCall) :
    Sound (entriesAfter toString calls).storage (entriesAfter toString calls).managed :=
  sound_run sound_empty calls

namespace ContractCall

-- What a submitted action is answered.
def results (entries : Entries) (call : ContractCall) : List RoundResult :=
  match call.op with
  | .submitAction device action =>
    ((GuildArena.submitAction (call.env entries) device action).map Prod.fst).toList
  | _ => []

-- The call finds somebody in the queue and starts a match.
def Begins (toString : Address → Bytes) (entries : Entries) (call : ContractCall) : Prop :=
  (call.invoke toString (call.env entries)).isSome ∧ (entries.storage.get .queue).isSome ∧
    ∃ device, call.op = .startMatch device

end ContractCall

open ContractCall

section Step

theorem submitAction_of_accepted {device : Address} {action : CombatAction}
    (hop : call.op = .submitAction device action) (haccepted : call.Accepted toString entries) :
    ∃ (result : RoundResult) (next : ContractEnv),
      submitAction (call.env entries) device action = some (result, next) ∧
      call.results entries = [result] ∧ (call.step toString entries).storage = next.storage := by
  obtain ⟨next, hcall⟩ := Option.isSome_iff_exists.mp haccepted
  have hinvoke := hcall
  rw [invoke, hop] at hinvoke
  obtain ⟨⟨result, _⟩, hsubmit, rfl⟩ := Option.map_eq_some_iff.mp hinvoke
  refine ⟨result, _, hsubmit, ?_, ?_⟩
  · simp only [results, hop, hsubmit]
    rfl
  · rw [step, hcall]

theorem results_of_idle
    (hidle : ¬∃ device action, call.op = .submitAction device action ∧ call.Accepted toString entries) :
    call.results entries = [] := by
  rw [results]
  split
  · rename_i device action hop
    cases hsubmit : submitAction (call.env entries) device action with
    | none => rfl
    | some outcome =>
        refine absurd ⟨device, action, hop, ?_⟩ hidle
        rw [Accepted, invoke, hop]
        dsimp only
        rw [hsubmit]
        rfl
  · rfl

-- Unless it starts another, a call leaves the match or is a blow in it.
theorem arena_step (h : Sound entries.storage entries.managed) {arena : ArenaState}
    (harena : entries.storage.get .arena = some arena) (hbegins : ¬call.Begins toString entries) :
    call.results entries = [] ∧ (call.step toString entries).storage.get .arena = some arena ∨
      ∃ (next : ArenaState) (finished : Bool), call.results entries = [resultOf next finished] ∧
        (call.step toString entries).storage.get .arena = some next ∧ arena.status = .InProgress ∧
        Struck arena next finished := by
  have hsound : Sound (call.env entries).storage (call.env entries).managed := h
  by_cases hacts : ∃ device action, call.op = .submitAction device action ∧ call.Accepted toString entries
  · obtain ⟨device, action, hop, haccepted⟩ := hacts
    obtain ⟨_, next, hsubmit, hresults, hstep⟩ := submitAction_of_accepted hop haccepted
    obtain ⟨arena', outcome, hblow, rfl, hstored, _⟩ := get_submitAction hsubmit
    obtain rfl : arena' = arena := Option.some.inj (hblow.stored.symm.trans harena)
    refine Or.inr ⟨outcome.1, outcome.2, hresults, ?_, hblow.inProgress, (hblow.struck hsound).2⟩
    rw [hstep]
    exact hstored
  · refine Or.inl ⟨results_of_idle hacts, ?_⟩
    rcases get_step toString entries call .arena with hkept | ⟨haccepted, hwrites⟩
    · exact hkept.trans harena
    · cases hwrites with
      | begun hop hqueue => exact absurd ⟨haccepted, hqueue, _, hop⟩ hbegins
      | struck hop => exact absurd ⟨_, _, hop, haccepted⟩ hacts

end Step

-- The rounds of a match that stood at `arena`, up to `final`.
structure Played (arena final : ArenaState) (results : List RoundResult) : Prop where
  challenger : final.challenger = arena.challenger
  defender : final.defender = arena.defender
  rounds : results.map RoundResult.round = List.range' (arena.round + 1) results.length
  round : final.round = arena.round + results.length
  challengerHp : final.challengerHp ≤ arena.challengerHp
  defenderHp : final.defenderHp ≤ arena.defenderHp
  falls : final.challengerHp + final.defenderHp + results.length ≤ arena.challengerHp + arena.defenderHp
  unplayed : results = [] → final = arena
  last : ∀ result ∈ results.getLast?, result = resultOf final (decide (final.status = .Finished))
  before : ∀ result ∈ results.dropLast, result.finished = false

theorem Played.start (arena : ArenaState) : Played arena arena [] where
  challenger := rfl
  defender := rfl
  rounds := rfl
  round := rfl
  challengerHp := Nat.le_refl _
  defenderHp := Nat.le_refl _
  falls := Nat.le_refl _
  unplayed _ := rfl
  last := by simp
  before := by simp

theorem Played.blow {arena final next : ArenaState} {results : List RoundResult} {finished : Bool}
    (h : Played arena final results) (hstatus : final.status = .InProgress)
    (hstruck : Struck final next finished) :
    Played arena next (results ++ [resultOf next finished]) where
  challenger := hstruck.challenger.trans h.challenger
  defender := hstruck.defender.trans h.defender
  rounds := by
    have hround : (resultOf next finished).round = arena.round + 1 + 1 * results.length := by
      change next.round = _
      rw [hstruck.round, h.round]
      omega
    rw [List.map_append, h.rounds, List.length_append, List.length_singleton, List.range'_concat,
      List.map_singleton, hround]
  round := by rw [hstruck.round, h.round, List.length_append, List.length_singleton, Nat.add_assoc]
  challengerHp := hstruck.challengerHp.trans h.challengerHp
  defenderHp := hstruck.defenderHp.trans h.defenderHp
  falls := by
    have hfalls := hstruck.falls
    have hbefore := h.falls
    rw [List.length_append, List.length_singleton]
    omega
  unplayed hnil := by simp at hnil
  last result hresult := by
    obtain rfl : resultOf next finished = result := by simpa using hresult
    congr 1
    rw [Bool.eq_iff_iff, decide_eq_true_iff]
    exact hstruck.ended
  before result hresult := by
    rw [List.dropLast_concat] at hresult
    -- the round before was not the last, for the match was still on
    rcases List.eq_nil_or_concat results with rfl | ⟨earlier, previous, rfl⟩
    · cases hresult
    · rw [List.concat_eq_append] at h hresult
      rcases List.mem_append.mp hresult with hearlier | hprevious
      · exact h.before result (by rwa [List.dropLast_concat])
      · obtain rfl := List.mem_singleton.mp hprevious
        rw [h.last result (by simp), resultOf, hstatus]
        rfl

-- A match lasts as long as no other one is started: every action that is taken is the next round and leaves the
-- players fewer points together, and the last of them, if any, ends it.
theorem match_runs_down (toString : Address → Bytes) (past rest : List ContractCall) (arena : ArenaState)
    (harena : (entriesAfter toString past).storage.get .arena = some arena)
    (hmatch : StepsMeet (ContractCall.step toString) (fun entries call => ¬call.Begins toString entries)
      (entriesAfter toString past) rest) :
    ∃ final, (entriesAfter toString (past ++ rest)).storage.get .arena = some final ∧
      Played arena final (emitted (ContractCall.step toString) ContractCall.results
        (entriesAfter toString past) rest) := by
  induction rest using List.reverseRecOn with
  | nil =>
      rw [List.append_nil]
      exact ⟨arena, harena, .start arena⟩
  | append_singleton rest call ih =>
      obtain ⟨hrest, hcall⟩ := (stepsMeet_concat _ rest call).mp hmatch
      obtain ⟨final, hfinal, hplayed⟩ := ih hrest
      have hmiddle : run (ContractCall.step toString) (entriesAfter toString past) rest =
          entriesAfter toString (past ++ rest) := (run_append ..).symm
      have hafter : entriesAfter toString (past ++ (rest ++ [call])) =
          call.step toString (entriesAfter toString (past ++ rest)) := by
        rw [← List.append_assoc, entriesAfter, run_concat, ← entriesAfter]
      have hsound : Sound (entriesAfter toString (past ++ rest)).storage
          (entriesAfter toString (past ++ rest)).managed := sound_run sound_empty (past ++ rest)
      rw [emitted_concat, hmiddle, hafter]
      rw [hmiddle] at hcall
      rcases arena_step hsound hfinal hcall with
        ⟨hnone, hkept⟩ | ⟨next, finished, hresult, hnext, hstatus, hstruck⟩
      · rw [hnone, List.append_nil]
        exact ⟨final, hkept, hplayed⟩
      · rw [hresult]
        exact ⟨next, hnext, hplayed.blow hstatus hstruck⟩

-- Stands for the string that the host makes of an address.
def characters : Address → Bytes
  | .account key => List.replicate 24 71 ++ key.toList
  | .contract hash => List.replicate 24 67 ++ hash.toList

def champion : Address := .account (Vector.replicate 32 1)

def rival : Address := .account (Vector.replicate 32 2)

def tablet : Address := .account (Vector.replicate 32 3)

def laptop : Address := .account (Vector.replicate 32 4)

-- Two players register, add a device and look for a match.
def matched : List ContractCall :=
  [.registerPlayer champion [] 1 0, .addDevice champion tablet ⟨.PlayOnly⟩, .startMatch tablet,
    .registerPlayer rival [] 1 0, .addDevice rival laptop ⟨.PlayOnly⟩, .startMatch laptop].map
    fun op => ⟨0, fun _ => true, op⟩

def special (device : Address) : ContractCall := ⟨0, fun _ => true, .submitAction device .Special⟩

theorem champion_runs_down : ∃ final,
    (entriesAfter characters (matched ++ List.replicate 6 (special tablet))).storage.get .arena = some final ∧
      Played (newMatch champion rival (newProfile champion) (newProfile rival)) final
        (emitted (ContractCall.step characters) ContractCall.results (entriesAfter characters matched)
          (List.replicate 6 (special tablet))) := by
  have hacts (entries : Entries) : ¬(special tablet).Begins characters entries := by
    rintro ⟨_, _, device, h⟩
    cases h
  exact match_runs_down characters matched (List.replicate 6 (special tablet)) _ rfl
    ⟨hacts _, hacts _, hacts _, hacts _, hacts _, hacts _, trivial⟩

end Cougr.GuildArena
