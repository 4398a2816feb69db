import Cougr.Ecs.Entity

namespace Cougr.Ecs.EntityManager

open Transition

def managerAfter (ops : List Op) : EntityManager := run step new ops

-- The ids that a run of spawns and despawns hands out, in order.
def spawnedBy (manager : EntityManager) : Op → List EntityId
  | .spawn => [manager.spawn.1]
  | .despawn _ => []

def spawned (ops : List Op) : List EntityId := emitted step spawnedBy new ops

-- No id is handed out twice, and the entity of a despawned id is gone for good.
structure NeverReissued (ops : List Op) : Prop where
  distinct : (spawned ops).Nodup
  gone : ∀ past e more rest, ops = past ++ .despawn e :: (more ++ rest) →
    ((managerAfter past).despawn e).1 = true →
    ¬(managerAfter (past ++ .despawn e :: more)).entityExists e

-- The generation never moves, so a number from the free list makes an id that was there before.
def TakesNewId (manager : EntityManager) : Op → Prop
  | .spawn => manager.freeList = []
  | .despawn _ => True

instance (manager : EntityManager) : DecidablePred manager.TakesNewId
  | .spawn => inferInstanceAs (Decidable (_ = []))
  | .despawn _ => inferInstanceAs (Decidable True)

section Spawned

theorem managerAfter_concat (past : List Op) (op : Op) :
    managerAfter (past ++ [op]) = (managerAfter past).step op := run_concat ..

theorem spawned_concat (past : List Op) (op : Op) :
    spawned (past ++ [op]) = spawned past ++ spawnedBy (managerAfter past) op := emitted_concat ..

theorem wellFormed_managerAfter (ops : List Op) : (managerAfter ops).WellFormed :=
  run_invariant_of_step WellFormed (fun _ op h => wellFormed_step h op) wellFormed_new ops

theorem mem_ids_despawn (manager : EntityManager) (entityId : EntityId) (id : Nat) :
    id ∈ (manager.despawn entityId).2.liveIds ++ (manager.despawn entityId).2.freeList ↔
      id ∈ manager.liveIds ++ manager.freeList := by
  rcases manager.despawn_cases entityId with ⟨before, entity, after, hsplit, rfl, hdespawn⟩ | ⟨_, hdespawn⟩
  · rw [hdespawn, liveIds, liveIds, hsplit, List.map_append, List.map_append, List.map_cons]
    exact manager.pool.mem_give_iff _ _ _ _
  · rw [hdespawn]

theorem mem_ids_spawn (manager : EntityManager) (id : Nat) :
    id ∈ manager.spawn.2.liveIds ++ manager.spawn.2.freeList ↔
      id ∈ manager.liveIds ++ manager.freeList ∨ id = manager.spawn.1.id := by
  rw [liveIds_spawn, spawn_eq]
  exact manager.pool.mem_take_iff manager.liveIds id

-- The ids handed out so far are the live ones and the freed ones.
theorem mem_spawned_iff (ops : List Op) (e : EntityId) : e ∈ spawned ops ↔
    e.generation = 0 ∧ e.id ∈ (managerAfter ops).liveIds ++ (managerAfter ops).freeList := by
  induction ops using List.reverseRecOn with
  | nil => simp [spawned, emitted, managerAfter, new, liveIds]
  | append_singleton past op ih =>
      rw [spawned_concat, managerAfter_concat, List.mem_append, ih]
      cases op with
      | spawn =>
          have hnew : e ∈ spawnedBy (managerAfter past) .spawn ↔
              e.generation = 0 ∧ e.id = (managerAfter past).spawn.1.id := by
            rw [spawnedBy, List.mem_singleton, spawn_eq]
            obtain ⟨id, generation⟩ := e
            simp [and_comm]
          rw [hnew, ← and_or_left]
          exact and_congr_right fun _ => (mem_ids_spawn _ _).symm
      | despawn entityId =>
          rw [spawnedBy, or_iff_left List.not_mem_nil]
          exact and_congr_right fun _ => (mem_ids_despawn _ _ _).symm

theorem nodup_spawned_concat (past : List Op) (op : Op) :
    (spawned (past ++ [op])).Nodup ↔ (spawned past).Nodup ∧ (managerAfter past).TakesNewId op := by
  rw [spawned_concat]
  cases op with
  | spawn =>
      have hnew := (wellFormed_managerAfter past).accounts.take_new_iff
      rw [spawnedBy, ← List.concat_eq_append, List.nodup_concat, mem_spawned_iff, spawn_eq, and_comm]
      exact and_congr_right fun _ => (not_congr (and_iff_right rfl)).trans hnew
  | despawn e => rw [spawnedBy, List.append_nil, TakesNewId, and_true]

theorem nodup_spawned_iff (ops : List Op) : (spawned ops).Nodup ↔ StepsMeet step TakesNewId new ops := by
  induction ops using List.reverseRecOn with
  | nil => exact iff_of_true List.nodup_nil trivial
  | append_singleton past op ih => rw [nodup_spawned_concat, ih, stepsMeet_concat, managerAfter]

end Spawned

section Gone

-- The entity is not there, and the counter is past its number.
def Gone (e : EntityId) (manager : EntityManager) : Prop := ¬manager.entityExists e ∧ e.id < manager.nextId

variable {manager : EntityManager} {e : EntityId}

theorem gone_of_despawn (h : manager.WellFormed) (hdespawn : (manager.despawn e).1 = true) :
    Gone e (manager.despawn e).2 := by
  refine ⟨h.not_exists_despawn e, ?_⟩
  rcases manager.despawn_cases e with ⟨before, entity, after, hsplit, rfl, hcall⟩ | ⟨_, hcall⟩
  · have hlive : entity.id.id ∈ manager.liveIds := by
      rw [liveIds, hsplit]
      exact List.mem_map_of_mem (List.mem_append_right _ List.mem_cons_self)
    rw [hcall]
    exact h.accounts.below _ (List.mem_append_left _ hlive)
  · rw [hcall] at hdespawn
    cases hdespawn

-- A new id is not an old one, and a despawn adds none.
theorem gone_step (h : Gone e manager) {op : Op} (hnew : manager.TakesNewId op) : Gone e (manager.step op) := by
  obtain ⟨habsent, hbelow⟩ := h
  rw [entityExists_iff] at habsent
  cases op with
  | spawn =>
      have hfree : manager.freeList = [] := hnew
      have hspawn : manager.step .spawn = { manager with
          nextId := manager.nextId + 1
          entities := manager.entities ++ [Entity.new ⟨manager.nextId, 0⟩] } := by
        rw [step, spawn_eq, IdPool.take_of_nil hfree]
        rfl
      rw [hspawn]
      refine ⟨?_, Nat.lt_succ_of_lt hbelow⟩
      rw [entityExists_iff]
      rintro ⟨entity, hentity, rfl⟩
      rcases List.mem_append.mp hentity with hold | hlast
      · exact habsent ⟨entity, hold, rfl⟩
      · rw [List.mem_singleton.mp hlast] at hbelow
        exact Nat.lt_irrefl _ hbelow
  | despawn other =>
      have hnext : (manager.step (.despawn other)).nextId = manager.nextId := by
        rcases manager.despawn_cases other with ⟨_, _, _, _, _, hcall⟩ | ⟨_, hcall⟩ <;> rw [step, hcall]
      refine ⟨?_, hnext.symm ▸ hbelow⟩
      rw [entityExists_iff]
      rintro ⟨entity, hentity, hid⟩
      exact habsent ⟨entity, manager.mem_of_mem_despawn hentity, hid⟩

theorem gone_of_takesNewIds {past more rest : List Op}
    (hnew : StepsMeet step TakesNewId new (past ++ .despawn e :: (more ++ rest)))
    (hdespawn : ((managerAfter past).despawn e).1 = true) :
    Gone e (managerAfter (past ++ .despawn e :: more)) := by
  rw [stepsMeet_append] at hnew
  obtain ⟨_, _, hlater⟩ := hnew
  obtain ⟨hmore, _⟩ := (stepsMeet_append ..).mp hlater
  rw [managerAfter, run_append, run_cons]
  exact run_invariant (Gone e) (fun _ _ h hnext => gone_step h hnext)
    (gone_of_despawn (wellFormed_managerAfter past) hdespawn) more hmore

end Gone

-- Ids are unique over time in the runs that never spawn after a despawn has freed a number.
theorem neverReissued_iff (ops : List Op) : NeverReissued ops ↔ StepsMeet step TakesNewId new ops := by
  constructor
  · exact fun h => (nodup_spawned_iff ops).mp h.distinct
  · intro hnew
    refine ⟨(nodup_spawned_iff ops).mpr hnew, ?_⟩
    rintro past e more rest rfl hdespawn
    exact (gone_of_takesNewIds hnew hdespawn).1

-- The first entity is despawned, and the next spawn hands its id out again.
theorem recycled_id_reissued : ¬NeverReissued [.spawn, .despawn ⟨1, 0⟩, .spawn] := by
  intro h
  have hdistinct := h.distinct
  revert hdistinct
  decide

end Cougr.Ecs.EntityManager
