import Cougr.ArchetypeWorld.Queries
import Cougr.SimpleWorld.Queries

namespace Cougr.ArchetypeWorld

-- The same operation on a flat world, where every addition goes to the table map.
def Op.flat : Op → SimpleWorld.Op
  | .spawnEntity => .spawnEntity
  | .addComponent entityId componentType data =>
    .addComponentWithStorage entityId componentType data .Table
  | .removeComponent entityId componentType => .removeComponent entityId componentType
  | .despawnEntity entityId => .despawnEntity entityId

def flatWorldAfter (ops : List Op) : SimpleWorld := SimpleWorld.worldAfter (ops.map Op.flat)

section Contents

-- Where its components lie does not show: an archetype world reads as the partial map that its
-- operations describe.
theorem getComponent_step {world : ArchetypeWorld} {contents : SimpleWorld.Contents} (h : WellFormed world)
    (hget : ∀ e t, world.getComponent e t = contents (e, t)) (op : Op) (e : EntityId) (t : Symbol) :
    (world.step op).getComponent e t = contents.step op.flat (e, t) := by
  cases op with
  | spawnEntity => exact hget e t
  | addComponent e' t' d =>
      have hadd := (addComponent_spec d h e' t').2 e t
      simpa only [step, Op.flat, SimpleWorld.Contents.step, Function.update_apply, hget] using hadd
  | removeComponent e' t' =>
      have hremove := (removeComponent_spec h e' t').2.2 e t
      simpa only [step, Op.flat, SimpleWorld.Contents.step, Function.update_apply, hget] using hremove
  | despawnEntity e' =>
      have hdespawn := (despawnEntity_spec h e').2 e t
      simpa only [step, Op.flat, SimpleWorld.Contents.step, hget] using hdespawn

theorem worldAfter_concat (past : List Op) (op : Op) :
    worldAfter (past ++ [op]) = (worldAfter past).step op := Transition.run_concat ..

theorem getComponent_worldAfter (ops : List Op) (e : EntityId) (t : Symbol) :
    (worldAfter ops).getComponent e t = SimpleWorld.contentsAfter (ops.map Op.flat) (e, t) := by
  induction ops using List.reverseRecOn generalizing e t with
  | nil => simp [worldAfter, getComponent, new, SimpleWorld.contentsAfter]
  | append_singleton past op ih =>
      rw [worldAfter_concat, List.map_append, List.map_singleton, SimpleWorld.contentsAfter_concat]
      exact getComponent_step (invariant_worldAfter past) ih op e t

end Contents

section Flat

theorem follows_flat (ops : List Op) : ∀ op ∈ ops.map Op.flat, op.Follows fun _ => .Table := by
  intro op hop
  obtain ⟨source, _, rfl⟩ := List.mem_map.mp hop
  cases source with
  | addComponent e t d => exact rfl
  | spawnEntity => trivial
  | removeComponent e t => trivial
  | despawnEntity e => trivial

theorem indexed_flatWorldAfter (ops : List Op) :
    SimpleWorld.Indexed (fun _ => .Table) (flatWorldAfter ops) :=
  SimpleWorld.invariant_worldAfter _ (follows_flat ops)

theorem oneCopy_flat (ops : List Op) :
    Transition.StepsMeet SimpleWorld.step SimpleWorld.OneCopy SimpleWorld.new (ops.map Op.flat) :=
  SimpleWorld.oneCopy_of_follows _ (follows_flat ops)

theorem getComponent_flat (ops : List Op) (e : EntityId) (t : Symbol) :
    (flatWorldAfter ops).getComponent e t = SimpleWorld.contentsAfter (ops.map Op.flat) (e, t) :=
  (SimpleWorld.mirrors_worldAfter _ (oneCopy_flat ops)).get e t

end Flat

section Counter

theorem nextEntityId_enterArchetype (world : ArchetypeWorld) (e : EntityId) (types : List Symbol)
    (fill : Archetype → Archetype) :
    (world.enterArchetype e types fill).nextEntityId = world.nextEntityId := by
  unfold enterArchetype getOrCreateArchetype
  cases world.archetypeIndex.get types <;> rfl

-- Only a spawn takes an id, in both worlds.
def Op.idsTaken : Op → Nat
  | .spawnEntity => 1
  | _ => 0

theorem nextEntityId_step (world : ArchetypeWorld) (op : Op) :
    (world.step op).nextEntityId = world.nextEntityId + op.idsTaken := by
  cases op with
  | spawnEntity => rfl
  | addComponent e t d =>
      simp only [step, addComponent, Op.idsTaken, Nat.add_zero]
      split
      · split
        · split_ifs
          · rfl
          · exact nextEntityId_enterArchetype ..
        · rfl
      · exact nextEntityId_enterArchetype ..
  | removeComponent e t =>
      simp only [step, removeComponent, Op.idsTaken, Nat.add_zero]
      split
      · rfl
      · split
        · rfl
        · split_ifs
          · rfl
          · exact nextEntityId_enterArchetype ..
          · rfl
  | despawnEntity e =>
      simp only [step, despawnEntity]
      split <;> rfl

theorem nextEntityId_flat_step (world : SimpleWorld) (op : Op) :
    (world.step op.flat).nextEntityId = world.nextEntityId + op.idsTaken := by
  rw [SimpleWorld.nextEntityId_step]
  cases op <;> rfl

theorem nextEntityId_worldAfter (ops : List Op) :
    (worldAfter ops).nextEntityId = (flatWorldAfter ops).nextEntityId := by
  induction ops using List.reverseRecOn with
  | nil => rfl
  | append_singleton past op ih =>
      have hflat : flatWorldAfter (past ++ [op]) = (flatWorldAfter past).step op.flat := by
        unfold flatWorldAfter
        rw [List.map_append, List.map_singleton, SimpleWorld.worldAfter_concat]
      rw [worldAfter_concat, hflat, nextEntityId_step, nextEntityId_flat_step, ih]

end Counter

section Equivalence

theorem hasComponent_flat (ops : List Op) (e : EntityId) (t : Symbol) :
    (worldAfter ops).hasComponent e t = (flatWorldAfter ops).hasComponent e t := by
  rw [(invariant_worldAfter ops).hasComponent_eq_isSome, SimpleWorld.hasComponent_eq_isSome,
    getComponent_worldAfter, getComponent_flat]

-- Callers cannot tell the two worlds apart: ids, answers and contents agree after every run, and the
-- query for one type has exactly the entities that the flat world lists.
theorem observably_flat (ops : List Op) :
    (worldAfter ops).spawnEntity.1 = (flatWorldAfter ops).spawnEntity.1 ∧
    (∀ e t, ((worldAfter ops).removeComponent e t).1 = ((flatWorldAfter ops).removeComponent e t).1) ∧
    (∀ e t, (worldAfter ops).getComponent e t = (flatWorldAfter ops).getComponent e t) ∧
    (∀ e t, (worldAfter ops).hasComponent e t = (flatWorldAfter ops).hasComponent e t) ∧
    ∀ t, List.Perm ((worldAfter ops).query [t]) ((flatWorldAfter ops).getEntitiesWithComponent t) := by
  have hwell := invariant_worldAfter ops
  have hindexed := indexed_flatWorldAfter ops
  refine ⟨nextEntityId_worldAfter ops, fun e t => ?_, fun e t => ?_, hasComponent_flat ops, fun t => ?_⟩
  · rw [(removeComponent_spec hwell e t).1, ← hwell.hasComponent_eq_isSome, hasComponent_flat,
      SimpleWorld.removeComponent_fst]
  · rw [getComponent_worldAfter, getComponent_flat]
  · have hnodup : ((flatWorldAfter ops).getEntitiesWithComponent t).Nodup :=
      ((SimpleWorld.ascending_keys _).filter _).imp ne_of_lt
    apply (List.perm_ext_iff_of_nodup (nodup_query hwell [t]) hnodup).mpr
    intro e
    rw [mem_query_singleton hwell, SimpleWorld.mem_getEntitiesWithComponent hindexed, hasComponent_flat]

end Equivalence

end Cougr.ArchetypeWorld
