import Cougr.SimpleWorld

namespace Cougr

inductive CommandKind where
  | Spawn
  | Despawn
  | AddComponent
  | RemoveComponent

structure CommandEntry where
  kind : CommandKind
  entityId : Option EntityId
  componentType : Option Symbol
  data : Option Bytes
  storage : ComponentStorage

structure CommandQueue where
  commands : List CommandEntry

namespace CommandQueue

def new : CommandQueue := ⟨[]⟩

def push (self : CommandQueue) (entry : CommandEntry) : CommandQueue := ⟨self.commands ++ [entry]⟩

def spawn (self : CommandQueue) : CommandQueue :=
  self.push { kind := .Spawn, entityId := none, componentType := none, data := none, storage := .Table }

def despawn (self : CommandQueue) (entityId : EntityId) : CommandQueue :=
  self.push {
    kind := .Despawn, entityId := some entityId, componentType := none, data := none, storage := .Table }

def addComponent (self : CommandQueue) (entityId : EntityId) (componentType : Symbol)
    (data : Bytes) : CommandQueue :=
  self.push {
    kind := .AddComponent
    entityId := some entityId
    componentType := some componentType
    data := some data
    storage := .Table }

def addSparseComponent (self : CommandQueue) (entityId : EntityId) (componentType : Symbol) (data : Bytes) :
    CommandQueue :=
  self.push {
    kind := .AddComponent
    entityId := some entityId
    componentType := some componentType
    data := some data
    storage := .Sparse }

def removeComponent (self : CommandQueue) (entityId : EntityId) (componentType : Symbol) : CommandQueue :=
  self.push {
    kind := .RemoveComponent
    entityId := some entityId
    componentType := some componentType
    data := none
    storage := .Table }

-- One turn of the loop of `apply`; an entry that lacks what its kind needs is passed over.
def applyEntry : List EntityId × SimpleWorld → CommandEntry → List EntityId × SimpleWorld
  | (spawnedIds, world), entry =>
    match entry.kind with
    | .Spawn =>
      let (id, world) := world.spawnEntity
      (spawnedIds ++ [id], world)
    | .Despawn =>
      match entry.entityId with
      | some entityId => (spawnedIds, world.despawnEntity entityId)
      | none => (spawnedIds, world)
    | .AddComponent =>
      match entry.entityId, entry.componentType, entry.data with
      | some entityId, some componentType, some data =>
        (spawnedIds, world.addComponentWithStorage entityId componentType data entry.storage)
      | _, _, _ => (spawnedIds, world)
    | .RemoveComponent =>
      match entry.entityId, entry.componentType with
      | some entityId, some componentType => (spawnedIds, (world.removeComponent entityId componentType).2)
      | _, _ => (spawnedIds, world)

def apply (self : CommandQueue) (world : SimpleWorld) : List EntityId × SimpleWorld :=
  self.commands.foldl applyEntry ([], world)

end CommandQueue

-- The calls that fill a queue.
inductive Command where
  | spawn
  | despawn (entityId : EntityId)
  | addComponent (entityId : EntityId) (componentType : Symbol) (data : Bytes)
  | addSparseComponent (entityId : EntityId) (componentType : Symbol) (data : Bytes)
  | removeComponent (entityId : EntityId) (componentType : Symbol)
  deriving DecidableEq

namespace CommandQueue

def enqueue (self : CommandQueue) : Command → CommandQueue
  | .spawn => self.spawn
  | .despawn entityId => self.despawn entityId
  | .addComponent entityId componentType data => self.addComponent entityId componentType data
  | .addSparseComponent entityId componentType data => self.addSparseComponent entityId componentType data
  | .removeComponent entityId componentType => self.removeComponent entityId componentType

def queued (commands : List Command) : CommandQueue := Transition.run enqueue new commands

end CommandQueue

namespace Command

-- What a command does when it is run on the world right away.
def op : Command → SimpleWorld.Op
  | .spawn => .spawnEntity
  | .despawn entityId => .despawnEntity entityId
  | .addComponent entityId componentType data => .addComponentWithStorage entityId componentType data .Table
  | .addSparseComponent entityId componentType data =>
    .addComponentWithStorage entityId componentType data .Sparse
  | .removeComponent entityId componentType => .removeComponent entityId componentType

def spawnedIds (world : SimpleWorld) : Command → List EntityId
  | .spawn => [world.spawnEntity.1]
  | _ => []

end Command

namespace CommandQueue

theorem apply_enqueue (self : CommandQueue) (command : Command) (world : SimpleWorld) :
    (self.enqueue command).apply world =
      ((self.apply world).1 ++ command.spawnedIds (self.apply world).2,
        (self.apply world).2.step command.op) := by
  have happend : ∀ entry, (self.push entry).apply world = applyEntry (self.apply world) entry := by
    intro entry
    rw [apply, push, List.foldl_append]
    rfl
  cases command with
  | spawn => exact happend _
  | despawn entityId => exact (happend _).trans (Prod.ext (List.append_nil _).symm rfl)
  | addComponent entityId componentType data => exact (happend _).trans (Prod.ext (List.append_nil _).symm rfl)
  | addSparseComponent entityId componentType data =>
    exact (happend _).trans (Prod.ext (List.append_nil _).symm rfl)
  | removeComponent entityId componentType => exact (happend _).trans (Prod.ext (List.append_nil _).symm rfl)

end CommandQueue

end Cougr
