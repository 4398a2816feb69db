import Cougr.Ecs.Entity.Generations

namespace Cougr.Ecs.EntityManager

open Transition

-- The ids whose despawn found an entity, in order.
def despawnedBy (manager : EntityManager) : Op → List EntityId
  | .spawn => []
  | .despawn entityId => if (manager.despawn entityId).1 then [entityId] else []

def despawned (ops : List Op) : List EntityId := emitted step despawnedBy new ops

-- Every number below the counter belongs to one live entity or stands once on the free list.
structure Partition (manager : EntityManager) : Prop where
  distinct : (manager.liveIds ++ manager.freeList).Nodup
  mem_iff : ∀ id, id ∈ manager.liveIds ++ manager.freeList ↔ 1 ≤ id ∧ id < manager.nextId

-- A despawn succeeds on a live entity alone, and takes that entity out from among the others.
structure DespawnsOnly (manager : EntityManager) (e : EntityId) : Prop where
  found : (manager.despawn e).1 = true ↔ manager.entityExists e
  entities : (manager.despawn e).2.entities = manager.entities.filter fun entity => entity.id ≠ e
  others : ∀ other, other ≠ e → (manager.despawn e).2.getEntity other = manager.getEntity other

variable {manager : EntityManager}

-- The counter starts at one.
def CoversIds (manager : EntityManager) : Prop := manager.pool.Covers manager.liveIds 1

theorem coversIds_step (h : manager.CoversIds) (op : Op) : (manager.step op).CoversIds := by
  cases op with
  | spawn =>
      rw [CoversIds, step, liveIds_spawn, spawn_eq]
      exact IdPool.Covers.take h
  | despawn entityId =>
      rcases manager.despawn_cases entityId with ⟨before, entity, after, hsplit, rfl, hdespawn⟩ | ⟨_, hdespawn⟩
      · rw [CoversIds, liveIds, hsplit, List.map_append, List.map_cons] at h
        rw [CoversIds, step, hdespawn, liveIds, List.map_append]
        exact IdPool.Covers.give h
      · rw [step, hdespawn]
        exact h

theorem coversIds_new : new.CoversIds := IdPool.covers_start 1

theorem coversIds_managerAfter (ops : List Op) : (managerAfter ops).CoversIds :=
  run_invariant_of_step CoversIds (fun _ op h => coversIds_step h op) coversIds_new ops

theorem partition_managerAfter (ops : List Op) : (managerAfter ops).Partition where
  distinct := (wellFormed_managerAfter ops).accounts.nodup
  mem_iff := (coversIds_managerAfter ops).mem_iff

-- An entity enters the count with the id that it is handed, and leaves it with its despawn.
theorem entityCount_step (manager : EntityManager) (op : Op) :
    (manager.step op).entityCount + (despawnedBy manager op).length =
      manager.entityCount + (spawnedBy manager op).length := by
  cases op with
  | spawn => simp [step, spawn_eq, entityCount, despawnedBy, spawnedBy]
  | despawn entityId =>
      rcases manager.despawn_cases entityId with ⟨before, entity, after, hsplit, _, hdespawn⟩ | ⟨_, hdespawn⟩
      · simp only [step, hdespawn, entityCount, despawnedBy, spawnedBy, hsplit, if_true, List.length_append,
          List.length_cons, List.length_nil]
        omega
      · simp [step, hdespawn, entityCount, despawnedBy, spawnedBy]

theorem entityCount_managerAfter (ops : List Op) :
    (managerAfter ops).entityCount + (despawned ops).length = (spawned ops).length := by
  induction ops using List.reverseRecOn with
  | nil => rfl
  | append_singleton past op ih =>
      have hstep := entityCount_step (managerAfter past) op
      rw [managerAfter_concat, spawned_concat, despawned, emitted_concat, List.length_append, List.length_append,
        ← managerAfter, ← despawned]
      omega

-- With one entity for an id the one despawned is the one that a filter on the id rejects.
theorem WellFormed.entities_despawn (h : manager.WellFormed) (e : EntityId) :
    (manager.despawn e).2.entities = manager.entities.filter fun entity => entity.id ≠ e := by
  have habsent := h.not_exists_despawn e
  rw [entityExists_iff] at habsent
  push Not at habsent
  rcases manager.despawn_cases e with ⟨before, entity, after, hsplit, hid, hdespawn⟩ | ⟨hnone, hdespawn⟩
  · rw [hdespawn] at habsent ⊢
    have hkeep : (before ++ after).filter (fun entity => entity.id ≠ e) = before ++ after :=
      List.filter_eq_self.mpr fun other hother => decide_eq_true (habsent other hother)
    rw [hsplit, List.filter_append, List.filter_cons_of_neg (by simp [hid]), ← List.filter_append, hkeep]
  · rw [hdespawn]
    exact (List.filter_eq_self.mpr fun other hother => decide_eq_true (hnone other hother)).symm

theorem WellFormed.despawnsOnly (h : manager.WellFormed) (e : EntityId) : manager.DespawnsOnly e where
  found := manager.despawn_fst_iff e
  entities := h.entities_despawn e
  others other hne := by
    rw [getEntity, h.entities_despawn, List.find?_filter, getEntity]
    congr
    funext entity
    by_cases hid : entity.id = other <;> simp [hid, hne]

-- The ids are partitioned after every run, and what entered and has not left is what is counted.
theorem partitions_ids (ops : List Op) :
    (managerAfter ops).Partition ∧
      (managerAfter ops).entityCount + (despawned ops).length = (spawned ops).length ∧
      ∀ e, (managerAfter ops).DespawnsOnly e :=
  ⟨partition_managerAfter ops, entityCount_managerAfter ops, (wellFormed_managerAfter ops).despawnsOnly⟩

end Cougr.Ecs.EntityManager
