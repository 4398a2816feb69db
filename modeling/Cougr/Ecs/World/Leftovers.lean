import Cougr.Ecs.World.Views

namespace Cougr.Ecs.World

open Transition

-- A despawned entity has no component left, and a new one has none yet.
structure LeavesNothing (ops : List Op) : Prop where
  despawned : ∀ past e rest, ops = past ++ .despawn e :: rest → ((worldAfter past).despawn e).1 = true →
    ∀ t, (worldAfter (past ++ [.despawn e])).getComponent e t = none
  spawned : ∀ past rest, ops = past ++ .spawnEmpty :: rest →
    ∀ t, (worldAfter (past ++ [.spawnEmpty])).getComponent (worldAfter past).spawnEmpty.1.id t = none

-- Components are added to entities that are there.
def AddsToLive (world : World) : Op → Prop
  | .spawnEmpty => True
  | .spawn _ => True
  | .addComponentToEntity entityId _ => world.entityExists entityId
  | .removeComponentFromEntity _ _ => True
  | .despawn _ => True

-- An entity is despawned after its components were removed one by one.
def DespawnsBare (world : World) : Op → Prop
  | .spawnEmpty => True
  | .spawn _ => True
  | .addComponentToEntity _ _ => True
  | .removeComponentFromEntity _ _ => True
  | .despawn entityId => world.entityExists entityId → ¬world.Stores entityId.id

instance (world : World) : DecidablePred world.AddsToLive
  | .spawnEmpty => inferInstanceAs (Decidable True)
  | .spawn _ => inferInstanceAs (Decidable True)
  | .addComponentToEntity _ _ => inferInstanceAs (Decidable (_ = true))
  | .removeComponentFromEntity _ _ => inferInstanceAs (Decidable True)
  | .despawn _ => inferInstanceAs (Decidable True)

instance (world : World) : DecidablePred world.DespawnsBare
  | .spawnEmpty => inferInstanceAs (Decidable True)
  | .spawn _ => inferInstanceAs (Decidable True)
  | .addComponentToEntity _ _ => inferInstanceAs (Decidable True)
  | .removeComponentFromEntity _ _ => inferInstanceAs (Decidable True)
  | .despawn _ => inferInstanceAs (Decidable (_ = true → _ ∉ _))

section Housed

variable {world : World}

-- Whatever is stored belongs to an entity that is there.
def Housed (world : World) : Prop := ∀ id, world.Stores id → id ∈ world.entities.liveIds

theorem housed_spawnEmpty (hhoused : world.Housed) : world.spawnEmpty.2.Housed := by
  intro id hstores
  rw [liveIds_spawnEmpty]
  exact List.mem_append_left _ (hhoused id hstores)

theorem housed_despawn (h : world.WellFormed) (hhoused : world.Housed) {e : EntityId}
    (hbare : world.DespawnsBare (.despawn e)) : (world.despawn e).2.Housed := by
  rw [despawn_eq h]
  intro id hstores
  have hlive := hhoused id hstores
  rcases world.entities.despawn_cases e with ⟨before, entity, after, hsplit, rfl, hdespawn⟩ | ⟨_, hdespawn⟩
  · have hthere : world.entityExists entity.id := by
      rw [entityExists, EntityManager.entityExists_iff]
      exact ⟨entity, hsplit ▸ List.mem_append_right _ List.mem_cons_self, rfl⟩
    have hne : id ≠ entity.id.id := by
      rintro rfl
      exact hbare hthere hstores
    rw [EntityManager.liveIds, hsplit] at hlive
    rw [EntityManager.liveIds, hdespawn]
    simpa [hne] using hlive
  · rw [hdespawn]
    exact hlive

theorem housed_step (h : world.WellFormed) (hhoused : world.Housed) (op : Op) (hadds : world.AddsToLive op)
    (hbare : world.DespawnsBare op) : (world.step op).Housed := by
  cases op with
  | spawnEmpty => exact housed_spawnEmpty hhoused
  | spawn components =>
      intro id hstores
      rw [step, spawn, entities_foldl_add]
      rcases (stores_foldl_add (wellFormed_spawnEmpty h) _ components id).mp hstores with hold | ⟨_, rfl⟩
      · exact housed_spawnEmpty hhoused id hold
      · exact mem_liveIds_spawnEmpty world
  | addComponentToEntity e component =>
      intro id hstores
      rcases (stores_addComponentToEntity h e component id).mp hstores with hold | rfl
      · exact hhoused id hold
      · exact mem_liveIds_of_exists hadds
  | removeComponentFromEntity e t =>
      exact fun id hstores => hhoused id
        (@Storage.mem_entityIds_of_removeComponent _ e t h.storage ⟨id, 0⟩ hstores)
  | despawn e => exact housed_despawn h hhoused hbare

theorem housed_worldAfter (ops : List Op) (hadds : StepsMeet step AddsToLive new ops)
    (hbare : StepsMeet step DespawnsBare new ops) : (worldAfter ops).Housed := by
  induction ops using List.reverseRecOn with
  | nil => exact fun id hstores => absurd hstores List.not_mem_nil
  | append_singleton past op ih =>
      obtain ⟨haddsPast, haddsHere⟩ := (stepsMeet_concat ..).mp hadds
      obtain ⟨hbarePast, hbareHere⟩ := (stepsMeet_concat ..).mp hbare
      rw [worldAfter, run_concat]
      exact housed_step (worldAfter_wellFormed past) (ih haddsPast hbarePast) op haddsHere hbareHere

end Housed

theorem despawn_fst_iff {world : World} (h : world.WellFormed) (e : EntityId) :
    (world.despawn e).1 = true ↔ world.entityExists e := by
  rw [despawn_eq h]
  exact world.entities.despawn_fst_iff e

theorem not_mem_liveIds_spawned {world : World} (h : world.WellFormed) :
    world.spawnEmpty.1.id.id ∉ world.entities.liveIds := by
  rw [spawnEmpty, EntityManager.spawn_eq]
  exact h.entities.accounts.take_not_mem

theorem not_stores_iff {world : World} (h : world.WellFormed) (e : EntityId) :
    ¬world.Stores e.id ↔ ∀ t, world.getComponent e t = none := by
  rw [stores_iff h]
  simp

theorem worldAfter_concat (past : List Op) (op : Op) : worldAfter (past ++ [op]) = (worldAfter past).step op :=
  run_concat ..

-- A run leaves nothing behind exactly when every entity it despawns is bare by then: the despawn itself
-- removes no component, and what it leaves is found again under the recycled number.
theorem leavesNothing_iff (ops : List Op) (hadds : StepsMeet step AddsToLive new ops) :
    LeavesNothing ops ↔ StepsMeet step DespawnsBare new ops := by
  constructor
  · intro hnothing
    rw [stepsMeet_iff_forall_cut]
    rintro past op rest rfl
    cases op with
    | spawnEmpty => trivial
    | spawn components => trivial
    | addComponentToEntity e component => trivial
    | removeComponentFromEntity e t => trivial
    | despawn e =>
        intro hthere
        have h := worldAfter_wellFormed past
        have hdespawned : ((worldAfter past).despawn e).1 = true := (despawn_fst_iff h e).mpr hthere
        have hnone := hnothing.despawned past e rest rfl hdespawned
        rw [worldAfter_concat] at hnone
        have hafter := (not_stores_iff (wellFormed_step h (.despawn e)) e).mpr hnone
        rw [step, despawn_eq h] at hafter
        exact hafter
  · intro hbare
    constructor
    · rintro past e rest rfl hdespawned
      have h := worldAfter_wellFormed past
      rw [worldAfter_concat, ← not_stores_iff (wellFormed_step h (.despawn e)), step, despawn_eq h]
      have hhere : (worldAfter past).DespawnsBare (.despawn e) :=
        (stepsMeet_iff_forall_cut ..).mp hbare past _ rest rfl
      exact hhere ((despawn_fst_iff h e).mp hdespawned)
    · rintro past rest rfl
      have h := worldAfter_wellFormed past
      rw [worldAfter_concat, ← not_stores_iff (wellFormed_step h .spawnEmpty)]
      have hhoused := housed_worldAfter past ((stepsMeet_append ..).mp hadds).1 ((stepsMeet_append ..).mp hbare).1
      exact fun hstores => not_mem_liveIds_spawned h (hhoused _ hstores)

-- The component is removed first.
theorem stripped_probe_leaves_nothing :
    LeavesNothing [.spawnEmpty, .addComponentToEntity ⟨1, 0⟩ probe,
      .removeComponentFromEntity ⟨1, 0⟩ probe.componentType, .despawn ⟨1, 0⟩, .spawnEmpty] :=
  (leavesNothing_iff [.spawnEmpty, .addComponentToEntity ⟨1, 0⟩ probe,
    .removeComponentFromEntity ⟨1, 0⟩ probe.componentType, .despawn ⟨1, 0⟩, .spawnEmpty] (by decide)).mpr
    (by decide)

-- The entity goes with its component on, and the next one under the number has it.
theorem probe_left_behind :
    StepsMeet step AddsToLive new
    [.spawnEmpty, .addComponentToEntity ⟨1, 0⟩ probe, .despawn ⟨1, 0⟩, .spawnEmpty] ∧
      ¬LeavesNothing [.spawnEmpty, .addComponentToEntity ⟨1, 0⟩ probe, .despawn ⟨1, 0⟩, .spawnEmpty] := by
  refine ⟨by decide, fun hnothing => ?_⟩
  have hnone := hnothing.spawned [.spawnEmpty, .addComponentToEntity ⟨1, 0⟩ probe, .despawn ⟨1, 0⟩] [] rfl
    probe.componentType
  revert hnone
  decide

end Cougr.Ecs.World
