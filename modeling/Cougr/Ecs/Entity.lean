import Cougr.Soroban
import Cougr.Library.IdPool
import Cougr.Library.Transition

namespace Cougr.Ecs

-- Ids are `u64` and generations `u32` in the source, where the build checks overflow.
structure EntityId where
  id : Nat
  generation : Nat
  deriving DecidableEq

structure Entity where
  id : EntityId
  componentTypes : List Symbol

namespace Entity

def new (id : EntityId) : Entity := ⟨id, []⟩

def addComponentType (self : Entity) (componentType : Symbol) : Entity :=
  { self with componentTypes := self.componentTypes ++ [componentType] }

def removeComponentType (self : Entity) (componentType : Symbol) : Bool × Entity :=
  let found := self.componentTypes.any (· = componentType)
  let newComponents := self.componentTypes.filter (· ≠ componentType)
  (found, if found then { self with componentTypes := newComponents } else self)

def hasComponent (self : Entity) (componentType : Symbol) : Bool := self.componentTypes.any (· = componentType)

end Entity

structure EntityManager where
  nextId : Nat
  entities : List Entity
  freeList : List Nat

namespace EntityManager

def new : EntityManager where
  nextId := 1
  entities := []
  freeList := []

-- Every entity is spawned with generation zero, also when its id comes off the free list.
def spawn (self : EntityManager) : EntityId × EntityManager :=
  let (id, self) : Nat × EntityManager :=
    if self.freeList.length > 0 then
      let lastIdx := self.freeList.length - 1
      (self.freeList[lastIdx]?.getD 0, { self with freeList := self.freeList.eraseIdx lastIdx })
    else (self.nextId, { self with nextId := self.nextId + 1 })
  let entityId : EntityId := ⟨id, 0⟩
  (entityId, { self with entities := self.entities ++ [Entity.new entityId] })

def despawn (self : EntityManager) (entityId : EntityId) : Bool × EntityManager :=
  match self.entities.findIdx? fun entity => entity.id = entityId with
  | some i =>
    (true, { self with
      entities := self.entities.eraseIdx i
      freeList := self.freeList ++ [entityId.id] })
  | none => (false, self)

def getEntity (self : EntityManager) (entityId : EntityId) : Option Entity :=
  self.entities.find? fun entity => entity.id = entityId

-- What it returns is a clone of the entity.
def getEntityMut (self : EntityManager) (entityId : EntityId) : Option Entity := self.getEntity entityId

def entityCount (self : EntityManager) : Nat := self.entities.length

def entityExists (self : EntityManager) (entityId : EntityId) : Bool :=
  self.entities.any fun entity => entity.id = entityId

def iterEntities (self : EntityManager) : List Entity := self.entities

inductive Op where
  | spawn
  | despawn (entityId : EntityId)
  deriving DecidableEq

def step (self : EntityManager) : Op → EntityManager
  | .spawn => self.spawn.2
  | .despawn entityId => (self.despawn entityId).2

section Pool

def pool (self : EntityManager) : IdPool := ⟨self.nextId, self.freeList⟩

def liveIds (self : EntityManager) : List Nat := self.entities.map fun entity => entity.id.id

variable (manager : EntityManager)

theorem spawn_eq : manager.spawn = (⟨manager.pool.take.1, 0⟩,
    { nextId := manager.pool.take.2.next
      entities := manager.entities ++ [Entity.new ⟨manager.pool.take.1, 0⟩]
      freeList := manager.pool.take.2.free }) := by
  rcases List.eq_nil_or_concat manager.freeList with hfree | ⟨rest, id, hfree⟩
  · rw [IdPool.take_of_nil hfree]
    simp [spawn, hfree, pool]
  · rw [List.concat_eq_append] at hfree
    rw [IdPool.take_of_concat hfree]
    simp [spawn, hfree, pool, List.eraseIdx_eq_take_drop_succ]

theorem liveIds_spawn : manager.spawn.2.liveIds = manager.liveIds ++ [manager.pool.take.1] := by
  rw [spawn_eq, liveIds, List.map_append]
  rfl

-- A despawn takes the first entity with the id out and frees the number, or finds none.
theorem despawn_cases (entityId : EntityId) :
    (∃ before entity after, manager.entities = before ++ entity :: after ∧ entity.id = entityId ∧
      manager.despawn entityId = (true, { manager with
        entities := before ++ after
        freeList := manager.freeList ++ [entityId.id] })) ∨
    (∀ entity ∈ manager.entities, entity.id ≠ entityId) ∧ manager.despawn entityId = (false, manager) := by
  cases hfind : manager.entities.findIdx? fun entity => entity.id = entityId with
  | none =>
      refine Or.inr ⟨fun entity hentity => ?_, by rw [despawn, hfind]⟩
      simpa using List.findIdx?_eq_none_iff.mp hfind entity hentity
  | some i =>
      obtain ⟨hi, hid, _⟩ := List.findIdx?_eq_some_iff_getElem.mp hfind
      have hsplit : manager.entities =
          manager.entities.take i ++ manager.entities[i] :: manager.entities.drop (i + 1) := by
        rw [← List.drop_eq_getElem_cons hi, List.take_append_drop]
      refine Or.inl ⟨_, _, _, hsplit, by simpa using hid, ?_⟩
      rw [despawn, hfind]
      simp only [List.eraseIdx_eq_take_drop_succ]

theorem mem_of_mem_despawn {entityId : EntityId} {entity : Entity}
    (h : entity ∈ (manager.despawn entityId).2.entities) : entity ∈ manager.entities := by
  rcases manager.despawn_cases entityId with ⟨before, gone, after, hsplit, _, hdespawn⟩ | ⟨_, hdespawn⟩
  · rw [hdespawn] at h
    rw [hsplit]
    exact ((List.sublist_cons_self gone after).append_left before).mem h
  · rwa [hdespawn] at h

theorem entityExists_iff (entityId : EntityId) :
    manager.entityExists entityId ↔ ∃ entity ∈ manager.entities, entity.id = entityId := by
  simp [entityExists]

theorem despawn_fst_iff (entityId : EntityId) :
    (manager.despawn entityId).1 = true ↔ manager.entityExists entityId := by
  rw [entityExists_iff]
  rcases manager.despawn_cases entityId with ⟨before, entity, after, hsplit, hid, hdespawn⟩ | ⟨hnone, hdespawn⟩
  · rw [hdespawn]
    exact iff_of_true rfl ⟨entity, hsplit ▸ List.mem_append_right _ List.mem_cons_self, hid⟩
  · rw [hdespawn]
    refine iff_of_false Bool.false_ne_true ?_
    rintro ⟨entity, hentity, hid⟩
    exact hnone entity hentity hid

-- The numeric ids of the entities and the freed ones are accounted for, and there is one generation.
structure WellFormed (manager : EntityManager) : Prop where
  accounts : manager.pool.Accounts manager.liveIds
  generation : ∀ entity ∈ manager.entities, entity.id.generation = 0

variable {manager}

theorem wellFormed_new : WellFormed new where
  accounts := ⟨List.nodup_nil, fun _ hid => absurd hid List.not_mem_nil⟩
  generation _ hentity := absurd hentity List.not_mem_nil

theorem wellFormed_spawn (h : manager.WellFormed) : manager.spawn.2.WellFormed := by
  constructor
  · rw [liveIds_spawn, spawn_eq]
    exact h.accounts.take
  · intro entity hentity
    rw [spawn_eq] at hentity
    rcases List.mem_append.mp hentity with hold | hnew
    · exact h.generation entity hold
    · rw [List.mem_singleton.mp hnew]
      rfl

theorem wellFormed_despawn (h : manager.WellFormed) (entityId : EntityId) :
    (manager.despawn entityId).2.WellFormed := by
  rcases manager.despawn_cases entityId with ⟨before, entity, after, hsplit, rfl, hdespawn⟩ | ⟨_, hdespawn⟩
  · rw [hdespawn]
    constructor
    · have hlive := h.accounts
      rw [liveIds, hsplit, List.map_append, List.map_cons] at hlive
      rw [liveIds, List.map_append]
      exact hlive.give
    · intro other hother
      apply h.generation other
      apply manager.mem_of_mem_despawn
      rwa [hdespawn]
  · rw [hdespawn]
    exact h

theorem wellFormed_step (h : manager.WellFormed) (op : Op) : (manager.step op).WellFormed := by
  cases op with
  | spawn => exact wellFormed_spawn h
  | despawn entityId => exact wellFormed_despawn h entityId

-- One entity for an id, so that an entity is found by its number alone.
theorem WellFormed.eq_of_id_eq (h : manager.WellFormed) {first second : Entity}
    (hfirst : first ∈ manager.entities)
    (hsecond : second ∈ manager.entities) (hid : first.id.id = second.id.id) : first = second :=
  List.inj_on_of_nodup_map (List.Nodup.of_append_left h.accounts.nodup) hfirst hsecond hid

theorem WellFormed.not_exists_despawn (h : manager.WellFormed) (entityId : EntityId) :
    ¬(manager.despawn entityId).2.entityExists entityId := by
  rw [entityExists_iff]
  rintro ⟨other, hother, hid⟩
  rcases manager.despawn_cases entityId with ⟨before, entity, after, hsplit, rfl, hdespawn⟩ | ⟨hnone, hdespawn⟩
  · rw [hdespawn] at hother
    have hnodup := List.Nodup.of_append_left h.accounts.nodup
    rw [liveIds, hsplit, List.map_append, List.map_cons, List.nodup_middle, List.nodup_cons, ← List.map_append]
      at hnodup
    exact hnodup.1 (List.mem_map.mpr ⟨other, hother, congrArg EntityId.id hid⟩)
  · rw [hdespawn] at hother
    exact hnone other hother hid

end Pool

end EntityManager

end Cougr.Ecs
