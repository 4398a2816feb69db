import Cougr.Ecs.Storage

namespace Cougr.Ecs

structure Resource where
  resourceType : Symbol
  data : Bytes
  deriving DecidableEq

structure World where
  entities : EntityManager
  components : ComponentRegistry
  storage : Storage
  resources : List Resource

namespace World

def new : World where
  entities := EntityManager.new
  components := ComponentRegistry.new
  storage := Storage.new
  resources := []

def spawnEmpty (self : World) : Entity × World :=
  let (entityId, entities) := self.entities.spawn
  (Entity.new entityId, { self with entities })

def addComponentToEntity (self : World) (entityId : EntityId) (component : Component) : World :=
  let components := (self.components.registerComponent component.componentType).2
  -- the type is added to a clone of the entity, and the clone is dropped
  let _entity := (self.entities.getEntityMut entityId).map fun entity =>
    entity.addComponentType component.componentType
  { self with components, storage := self.storage.addComponent entityId component }

def spawn (self : World) (components : List Component) : Entity × World :=
  let (entityId, entities) := self.entities.spawn
  (Entity.new entityId,
    components.foldl (fun world component => world.addComponentToEntity entityId component)
    { self with entities })

def removeComponentFromEntity (self : World) (entityId : EntityId) (componentType : Symbol) : Bool × World :=
  -- here too
  let _entity := (self.entities.getEntityMut entityId).map fun entity =>
    (entity.removeComponentType componentType).2
  let (removed, storage) := self.storage.removeComponent entityId componentType
  (removed, { self with storage })

def getComponent (self : World) (entityId : EntityId) (componentType : Symbol) : Option Component :=
  self.storage.getComponent entityId componentType

def hasComponent (self : World) (entityId : EntityId) (componentType : Symbol) : Bool :=
  match self.entities.getEntity entityId with
  | some entity => entity.hasComponent componentType
  | none => false

-- The types of the entity record say which components leave the storage.
def despawn (self : World) (entityId : EntityId) : Bool × World :=
  let storage := match self.entities.getEntity entityId with
    | some entity => entity.componentTypes.foldl (fun storage ctype => (storage.removeComponent entityId ctype).2)
      self.storage
    | none => self.storage
  let (despawned, entities) := self.entities.despawn entityId
  (despawned, { self with entities, storage })

def entityExists (self : World) (entityId : EntityId) : Bool := self.entities.entityExists entityId

def queryEntities (self : World) (componentTypes : List Symbol) : List EntityId :=
  (self.entities.iterEntities.filter fun entity => componentTypes.all entity.hasComponent).map Entity.id

def addResource (self : World) (resource : Resource) : World :=
  { self with resources := self.resources ++ [resource] }

def getResource (self : World) (resourceType : Symbol) : Option Resource :=
  self.resources.find? fun res => res.resourceType = resourceType

-- The scan goes on after a match, so that the last one is returned and none is kept.
def removeResource (self : World) (resourceType : Symbol) : Option Resource × World :=
  let found := self.resources.foldl
    (fun found res => if res.resourceType = resourceType then some res else found) none
  let newResources := self.resources.filter fun res => res.resourceType ≠ resourceType
  if found.isSome then (found, { self with resources := newResources }) else (found, self)

inductive Op where
  | spawnEmpty
  | spawn (components : List Component)
  | addComponentToEntity (entityId : EntityId) (component : Component)
  | removeComponentFromEntity (entityId : EntityId) (componentType : Symbol)
  | despawn (entityId : EntityId)

def step (self : World) : Op → World
  | .spawnEmpty => self.spawnEmpty.2
  | .spawn components => (self.spawn components).2
  | .addComponentToEntity entityId component => self.addComponentToEntity entityId component
  | .removeComponentFromEntity entityId componentType => (self.removeComponentFromEntity entityId componentType).2
  | .despawn entityId => (self.despawn entityId).2

def worldAfter (ops : List Op) : World := Transition.run step new ops

section Reachable

-- The records of the entities never get a type, whatever is stored for them.
structure WellFormed (world : World) : Prop where
  entities : world.entities.WellFormed
  storage : world.storage.Aligned
  untyped : ∀ entity ∈ world.entities.entities, entity.componentTypes = []

variable {world : World}

theorem wellFormed_new : WellFormed new where
  entities := EntityManager.wellFormed_new
  storage := Storage.aligned_new
  untyped _ hentity := absurd hentity List.not_mem_nil

theorem wellFormed_spawnEmpty (h : world.WellFormed) : world.spawnEmpty.2.WellFormed where
  entities := EntityManager.wellFormed_spawn h.entities
  storage := h.storage
  untyped entity hentity := by
    rw [spawnEmpty, EntityManager.spawn_eq] at hentity
    rcases List.mem_append.mp hentity with hold | hnew
    · exact h.untyped entity hold
    · rw [List.mem_singleton.mp hnew]
      rfl

theorem wellFormed_addComponentToEntity (h : world.WellFormed) (entityId : EntityId) (component : Component) :
    (world.addComponentToEntity entityId component).WellFormed :=
  ⟨h.entities, Storage.aligned_addComponent entityId h.storage component, h.untyped⟩

theorem wellFormed_foldl_add (entityId : EntityId) (components : List Component) (h : world.WellFormed) :
    (components.foldl (fun world component =>
      world.addComponentToEntity entityId component) world).WellFormed := by
  induction components generalizing world with
  | nil => exact h
  | cons component components ih => exact ih (wellFormed_addComponentToEntity h entityId component)

-- No type is listed, so a despawn leaves the storage as it is.
theorem despawn_eq (h : world.WellFormed) (entityId : EntityId) :
    world.despawn entityId = ((world.entities.despawn entityId).1,
      { world with entities := (world.entities.despawn entityId).2 }) := by
  rw [despawn]
  cases hget : world.entities.getEntity entityId with
  | none => rfl
  | some entity =>
      have htypes := h.untyped entity (List.mem_of_find?_eq_some hget)
      simp only [htypes, List.foldl_nil]

theorem wellFormed_despawn (h : world.WellFormed) (entityId : EntityId) :
    (world.despawn entityId).2.WellFormed := by
  rw [despawn_eq h]
  refine ⟨EntityManager.wellFormed_despawn h.entities entityId, h.storage, ?_⟩
  intro entity hentity
  exact h.untyped entity (world.entities.mem_of_mem_despawn hentity)

theorem wellFormed_step (h : world.WellFormed) (op : Op) : (world.step op).WellFormed := by
  cases op with
  | spawnEmpty => exact wellFormed_spawnEmpty h
  | spawn components => exact wellFormed_foldl_add _ components (wellFormed_spawnEmpty h)
  | addComponentToEntity entityId component => exact wellFormed_addComponentToEntity h entityId component
  | removeComponentFromEntity entityId componentType =>
      exact ⟨h.entities, Storage.aligned_removeComponent entityId componentType h.storage, h.untyped⟩
  | despawn entityId => exact wellFormed_despawn h entityId

theorem worldAfter_wellFormed (ops : List Op) : (worldAfter ops).WellFormed :=
  Transition.run_invariant_of_step WellFormed (fun _ op h => wellFormed_step h op) wellFormed_new ops

end Reachable

section Stored

variable {world : World}

-- A number under which a component is stored.
def Stores (world : World) (id : Nat) : Prop := id ∈ world.storage.entityIds

theorem stores_iff (h : world.WellFormed) (e : EntityId) :
    world.Stores e.id ↔ ∃ t, (world.getComponent e t).isSome := Storage.mem_entityIds_iff h.storage e

theorem entities_foldl_add (world : World) (entityId : EntityId) (components : List Component) :
    (components.foldl (fun world component => world.addComponentToEntity entityId component) world).entities =
      world.entities := by
  induction components generalizing world with
  | nil => rfl
  | cons component components ih => exact ih _

theorem stores_addComponentToEntity (h : world.WellFormed) (entityId : EntityId) (component : Component)
    (id : Nat) : (world.addComponentToEntity entityId component).Stores id ↔
      world.Stores id ∨ id = entityId.id :=
  Storage.mem_entityIds_addComponent entityId h.storage component ⟨id, 0⟩

theorem stores_foldl_add (h : world.WellFormed) (entityId : EntityId) (components : List Component) (id : Nat) :
    (components.foldl (fun world component => world.addComponentToEntity entityId component) world).Stores id ↔
      world.Stores id ∨ components ≠ [] ∧ id = entityId.id := by
  induction components generalizing world with
  | nil => simp
  | cons component components ih =>
      have hnext := wellFormed_addComponentToEntity h entityId component
      rw [List.foldl_cons, ih hnext, stores_addComponentToEntity h]
      simp only [ne_eq, reduceCtorEq, not_false_eq_true, true_and]
      tauto

end Stored

end World

end Cougr.Ecs
