import Cougr.Commands
import Cougr.SimpleWorld.Presence

namespace Cougr

open Transition SimpleWorld

namespace Command

-- An addition to entity 0.
def IsPlaceholder : Command → Prop
  | .addComponent entityId _ _ => entityId = 0
  | .addSparseComponent entityId _ _ => entityId = 0
  | _ => False

instance : DecidablePred IsPlaceholder
  | .spawn => inferInstanceAs (Decidable False)
  | .despawn _ => inferInstanceAs (Decidable False)
  | .addComponent _ _ _ => inferInstanceAs (Decidable (_ = _))
  | .addSparseComponent _ _ _ => inferInstanceAs (Decidable (_ = _))
  | .removeComponent _ _ => inferInstanceAs (Decidable False)

def Names : Command → EntityId → Prop
  | .spawn, _ => False
  | .despawn entityId, e => e = entityId
  | .addComponent entityId _ _, e => e = entityId
  | .addSparseComponent entityId _ _, e => e = entityId
  | .removeComponent entityId _, e => e = entityId

-- The command with `last` in place of the placeholder.
def resolve (last : EntityId) : Command → Command
  | .addComponent entityId componentType data =>
    .addComponent (if entityId = 0 then last else entityId) componentType data
  | .addSparseComponent entityId componentType data =>
    .addSparseComponent (if entityId = 0 then last else entityId) componentType data
  | command => command

theorem resolve_of_not_placeholder {command : Command} (h : ¬command.IsPlaceholder) (last : EntityId) :
    command.resolve last = command := by
  cases command with
  | addComponent entityId t data => exact congrArg (addComponent · t data) (if_neg h)
  | addSparseComponent entityId t data => exact congrArg (addSparseComponent · t data) (if_neg h)
  | _ => rfl

theorem getComponent_step_of_not_names (world : SimpleWorld) {command : Command} {e : EntityId}
    (h : ¬command.Names e) (t : Symbol) : (world.step command.op).getComponent e t = world.getComponent e t := by
  apply getComponent_step_of_not_targets
  cases command with
  | spawn => exact id
  | despawn entityId => exact h
  | addComponent entityId u data => exact fun htarget => h htarget.1
  | addSparseComponent entityId u data => exact fun htarget => h htarget.1
  | removeComponent entityId u => exact fun htarget => h htarget.1

end Command

namespace CommandQueue

-- What the queue is documented to do: entity 0 stands for the entity spawned last.
structure Documented where
  last : EntityId
  world : SimpleWorld

def Documented.step (state : Documented) (command : Command) : Documented where
  last := (command.spawnedIds state.world).getLastD state.last
  world := state.world.step (command.resolve state.last).op

def documented (commands : List Command) (world : SimpleWorld) : SimpleWorld :=
  (run Documented.step ⟨0, world⟩ commands).world

-- A placeholder stands behind some spawn.
def PlaceholdersAfterSpawn (commands : List Command) : Prop :=
  ∀ command ∈ commands.takeWhile (· ≠ .spawn), ¬command.IsPlaceholder

instance (commands : List Command) : Decidable (PlaceholdersAfterSpawn commands) :=
  inferInstanceAs (Decidable (∀ _ ∈ _, _))

-- The ids come in order, the world is the documented one, and entity 0 is given nothing.
structure WorksAsDocumented (commands : List Command) (world : SimpleWorld) : Prop where
  spawned : ((queued commands).apply world).1 = List.range' world.nextEntityId (commands.count .spawn)
  effect : ((queued commands).apply world).2 = documented commands world
  nobody : (∀ t, world.getComponent 0 t = none) → ∀ t, ((queued commands).apply world).2.getComponent 0 t = none

-- The commands name entities that were spawned before, and nothing is stored for those to come.
structure NamesOnlySpawned (commands : List Command) (world : SimpleWorld) : Prop where
  named : ∀ command ∈ commands, ∀ e, command.Names e → e < world.nextEntityId
  empty : ∀ e t, world.nextEntityId ≤ e → world.getComponent e t = none

section Apply

theorem apply_queued_snd (commands : List Command) (world : SimpleWorld) :
    ((queued commands).apply world).2 = run (fun world command => world.step command.op) world commands := by
  induction commands using List.reverseRecOn with
  | nil => rfl
  | append_singleton past command ih => rw [queued, run_concat, ← queued, apply_enqueue, run_concat, ih]

theorem nextEntityId_run (commands : List Command) (world : SimpleWorld) :
    (run (fun world command => world.step command.op) world commands).nextEntityId =
      world.nextEntityId + commands.count .spawn := by
  induction commands using List.reverseRecOn with
  | nil => rfl
  | append_singleton past command ih =>
      rw [run_concat, nextEntityId_step, ih, List.count_append, Nat.add_assoc]
      cases command <;> simp [Command.op, Op.idsTaken]

theorem apply_queued_fst (commands : List Command) (world : SimpleWorld) :
    ((queued commands).apply world).1 = List.range' world.nextEntityId (commands.count .spawn) := by
  induction commands using List.reverseRecOn with
  | nil => rfl
  | append_singleton past command ih =>
      rw [queued, run_concat, ← queued, apply_enqueue, ih, apply_queued_snd, List.count_append]
      cases command with
      | spawn =>
          simp only [Command.spawnedIds, spawnEntity, nextEntityId_run, List.count_singleton_self,
            List.range'_concat, Nat.one_mul]
      | _ => simp [Command.spawnedIds]

end Apply

section Plain

variable {commands : List Command}

theorem run_documented_of_plain (hplain : ∀ command ∈ commands, ¬command.IsPlaceholder) (state : Documented) :
    (run Documented.step state commands).world =
      run (fun world command => world.step command.op) state.world commands := by
  induction commands generalizing state with
  | nil => rfl
  | cons command commands ih =>
      obtain ⟨hhead, htail⟩ := List.forall_mem_cons.mp hplain
      rw [run_cons, run_cons, ih htail, Documented.step, Command.resolve_of_not_placeholder hhead]

-- A command that is no placeholder gives entity 0 nothing.
theorem getComponent_zero_step {world : SimpleWorld} (hnone : ∀ t, world.getComponent 0 t = none)
    {command : Command}
    (h : ¬command.IsPlaceholder) (t : Symbol) : (world.step command.op).getComponent 0 t = none := by
  rw [← Option.not_isSome_iff_eq_none, ← hasComponent_eq_isSome]
  have hnot : ∀ u, ¬world.hasComponent 0 u := by
    intro u
    rw [hasComponent_eq_isSome, hnone]
    exact Bool.false_ne_true
  cases command with
  | spawn => exact hnot t
  | despawn entityId =>
      rw [Command.op, step, hasComponent_despawn]
      exact fun hhas => hnot t hhas.1
  | addComponent entityId u data =>
      rw [Command.op, step, hasComponent_add]
      exact fun hhas => hhas.elim (hnot t) fun hsame => h hsame.1.symm
  | addSparseComponent entityId u data =>
      rw [Command.op, step, hasComponent_add]
      exact fun hhas => hhas.elim (hnot t) fun hsame => h hsame.1.symm
  | removeComponent entityId u =>
      rw [Command.op, step, hasComponent_remove]
      split_ifs with hkey
      · exact fun hdoubled => hnot u ((Prod.mk.inj hkey).1 ▸ hasComponent_of_doubled hdoubled)
      · exact hnot t

theorem works_of_plain (hplain : ∀ command ∈ commands, ¬command.IsPlaceholder) (world : SimpleWorld) :
    WorksAsDocumented commands world where
  spawned := apply_queued_fst commands world
  effect := by rw [apply_queued_snd, documented, run_documented_of_plain hplain]
  nobody hnone := by
    rw [apply_queued_snd]
    refine run_invariant_of_forall
      (fun world : SimpleWorld => ∀ t, world.getComponent 0 t = none) ?_ hnone commands hplain
    exact fun world command h hcommand => getComponent_zero_step h hcommand

end Plain

section Placeholders

variable {commands : List Command} {world : SimpleWorld} {first : EntityId}

-- Nothing is run for an entity that the commands do not name.
theorem getComponent_apply_of_unnamed (hnamed : ∀ command ∈ commands, ∀ e, command.Names e → e < first)
    (hempty : ∀ e t, first ≤ e → world.getComponent e t = none) (e : EntityId) (t : Symbol) (he : first ≤ e) :
    ((queued commands).apply world).2.getComponent e t = none := by
  rw [apply_queued_snd]
  refine run_invariant_of_forall (fun world : SimpleWorld => world.getComponent e t = none) ?_ (hempty e t he)
    commands hnamed
  intro before command hnone hcommand
  rw [Command.getComponent_step_of_not_names before fun hnames => Nat.not_lt_of_le he (hcommand e hnames)]
  exact hnone

-- In the documented run such an entity keeps what it is given.
theorem hasComponent_documented_step {command : Command} (hnamed : ∀ e, command.Names e → e < first)
    {state : Documented} {e : EntityId} {t : Symbol} (he : first ≤ e) (hhas : state.world.hasComponent e t) :
    (state.step command).world.hasComponent e t := by
  have hkept : ∀ other : Command, ¬other.Names e → (state.world.step other.op).hasComponent e t := by
    intro other hnames
    rwa [hasComponent_eq_isSome, Command.getComponent_step_of_not_names state.world hnames,
      ← hasComponent_eq_isSome]
  have hunnamed : ¬command.Names e := fun hnames => Nat.not_lt_of_le he (hnamed e hnames)
  cases command with
  | spawn => exact hkept _ hunnamed
  | despawn entityId => exact hkept _ hunnamed
  | addComponent entityId u data => exact (hasComponent_add ..).mpr (Or.inl hhas)
  | addSparseComponent entityId u data => exact (hasComponent_add ..).mpr (Or.inl hhas)
  | removeComponent entityId u => exact hkept _ hunnamed

theorem hasComponent_documented_placeholder {command : Command} (h : command.IsPlaceholder) (state : Documented) :
    ∃ t, (state.step command).world.hasComponent state.last t := by
  cases command with
  | addComponent entityId t data => exact ⟨t, (hasComponent_add ..).mpr (Or.inr ⟨(if_pos h).symm, rfl⟩)⟩
  | addSparseComponent entityId t data => exact ⟨t, (hasComponent_add ..).mpr (Or.inr ⟨(if_pos h).symm, rfl⟩)⟩
  | spawn => exact h.elim
  | despawn entityId => exact h.elim
  | removeComponent entityId t => exact h.elim

theorem nextEntityId_documented_step (state : Documented) (command : Command) :
    state.world.nextEntityId ≤ (state.step command).world.nextEntityId := by
  rw [Documented.step, nextEntityId_step]
  exact Nat.le_add_right _ _

-- The first placeholder finds a spawned entity, and what is placed on it stays.
theorem exists_placed (hnamed : ∀ command ∈ commands, ∀ e, command.Names e → e < first) {state : Documented}
    (hnext : first ≤ state.world.nextEntityId) (hafter : PlaceholdersAfterSpawn commands ∨ first ≤ state.last)
    (hplaceholder : ∃ command ∈ commands, command.IsPlaceholder) :
    ∃ e t, first ≤ e ∧ (run Documented.step state commands).world.hasComponent e t := by
  induction commands generalizing state with
  | nil =>
      obtain ⟨_, hmem, _⟩ := hplaceholder
      cases hmem
  | cons command commands ih =>
      obtain ⟨hhead, htail⟩ := List.forall_mem_cons.mp hnamed
      by_cases hcommand : command.IsPlaceholder
      · have hlast : first ≤ state.last := by
          refine hafter.resolve_left fun hbefore => hbefore command ?_ hcommand
          have hne : command ≠ .spawn := fun heq => (heq ▸ hcommand : Command.spawn.IsPlaceholder)
          simp [hne]
        obtain ⟨t, hplaced⟩ := hasComponent_documented_placeholder hcommand state
        refine ⟨state.last, t, hlast, ?_⟩
        refine run_invariant_of_forall
          (fun state' : Documented => state'.world.hasComponent state.last t) ?_ hplaced commands htail
        exact fun _ _ hhas hother => hasComponent_documented_step hother hlast hhas
      · have hrest : ∃ other ∈ commands, other.IsPlaceholder := by
          obtain ⟨other, hmem, hother⟩ := hplaceholder
          exact ⟨other, (List.mem_cons.mp hmem).resolve_left fun heq => hcommand (heq ▸ hother), hother⟩
        refine ih htail (hnext.trans (nextEntityId_documented_step state command)) ?_ hrest
        cases command with
        | spawn => exact Or.inr hnext
        | _ =>
            refine hafter.imp (fun hbefore other hmem => hbefore other ?_) id
            simpa using Or.inr hmem

theorem works_iff_of_namesOnlySpawned (hafter : PlaceholdersAfterSpawn commands)
    (h : NamesOnlySpawned commands world) :
    WorksAsDocumented commands world ↔ ∀ command ∈ commands, ¬command.IsPlaceholder := by
  constructor
  · intro hworks
    by_contra hsome
    push Not at hsome
    have hnext : world.nextEntityId ≤ (Documented.mk 0 world).world.nextEntityId := le_rfl
    obtain ⟨e, t, he, hplaced⟩ := exists_placed h.named hnext (Or.inl hafter) hsome
    rw [← documented, ← hworks.effect, hasComponent_eq_isSome,
      getComponent_apply_of_unnamed h.named h.empty e t he] at hplaced
    cases hplaced
  · exact fun hplain => works_of_plain hplain world

end Placeholders

section Worlds

theorem worldAfter_spawns (n : Nat) :
    worldAfter (List.replicate n .spawnEntity) = { SimpleWorld.new with nextEntityId := n + 1 } := by
  induction n with
  | zero => rfl
  | succ n ih =>
      rw [List.replicate_succ', worldAfter_concat, ih]
      rfl

theorem Command.exists_names_lt (command : Command) : ∃ bound, ∀ e, command.Names e → e < bound := by
  cases command with
  | spawn => exact ⟨0, fun e h => h.elim⟩
  | despawn entityId => exact ⟨entityId + 1, fun e h => h ▸ Nat.lt_succ_self e⟩
  | addComponent entityId t data => exact ⟨entityId + 1, fun e h => h ▸ Nat.lt_succ_self e⟩
  | addSparseComponent entityId t data => exact ⟨entityId + 1, fun e h => h ▸ Nat.lt_succ_self e⟩
  | removeComponent entityId t => exact ⟨entityId + 1, fun e h => h ▸ Nat.lt_succ_self e⟩

-- Enough spawns leave no id that the commands name for those to come.
theorem exists_namesOnlySpawned (commands : List Command) :
    ∃ n, NamesOnlySpawned commands (worldAfter (List.replicate n .spawnEntity)) := by
  have hbound : ∃ n, ∀ command ∈ commands, ∀ e, command.Names e → e < n := by
    induction commands with
    | nil => exact ⟨0, by simp⟩
    | cons command commands ih =>
        obtain ⟨n, hn⟩ := ih
        obtain ⟨m, hm⟩ := Command.exists_names_lt command
        refine ⟨max n m, List.forall_mem_cons.mpr ⟨fun e h => ?_, fun other hother e h => ?_⟩⟩
        · exact lt_max_of_lt_right (hm e h)
        · exact lt_max_of_lt_left (hn other hother e h)
  obtain ⟨n, hn⟩ := hbound
  refine ⟨n, ?_⟩
  rw [worldAfter_spawns]
  exact ⟨fun command hmem e h => Nat.lt_succ_of_lt (hn command hmem e h), fun e t _ => rfl⟩

-- A queue works in every world exactly when it makes no use of the placeholder; one that does fails wherever
-- the commands name only entities from before.
theorem works_as_documented_iff (commands : List Command) (hafter : PlaceholdersAfterSpawn commands) :
    ((∀ world, WorksAsDocumented commands world) ↔ ∀ command ∈ commands, ¬command.IsPlaceholder) ∧
    ∀ world, NamesOnlySpawned commands world →
      (WorksAsDocumented commands world ↔ ∀ command ∈ commands, ¬command.IsPlaceholder) := by
  refine ⟨⟨fun hall => ?_, works_of_plain⟩, fun world h => works_iff_of_namesOnlySpawned hafter h⟩
  obtain ⟨n, hnames⟩ := exists_namesOnlySpawned commands
  exact (works_iff_of_namesOnlySpawned hafter hnames).mp (hall _)

-- A bullet is spawned and fired.
def shot : List Command := [.spawn, .addComponent 0 (symbolShort "bullet") [7]]

theorem shot_misses_somewhere : ¬∀ world, WorksAsDocumented shot world :=
  fun hall => absurd ((works_as_documented_iff shot (by decide)).1.mp hall) (by decide)

-- The bullet lands on entity 0.
theorem bullet_on_nobody : PlaceholdersAfterSpawn shot ∧ ¬WorksAsDocumented shot SimpleWorld.new := by
  refine ⟨by decide, fun hworks => ?_⟩
  have hnobody := hworks.nobody (fun _ => rfl) (symbolShort "bullet")
  revert hnobody
  decide

end Worlds

end CommandQueue

end Cougr
