import Cougr.Soroban
import Cougr.Library.Transition

namespace Cougr

-- Ids and counters are `u32` and `u64` in the source. The build checks overflow, so every
-- run that completes has computed with the exact numbers.
abbrev EntityId := Nat

-- Components are kept under these pairs; their order is found once.
instance : Std.TransOrd (EntityId × Symbol) := inferInstance

inductive ComponentStorage where
  | Table
  | Sparse
  deriving DecidableEq

structure SimpleWorld where
  nextEntityId : EntityId
  components : Map (EntityId × Symbol) Bytes
  sparseComponents : Map (EntityId × Symbol) Bytes
  entityComponents : Map EntityId (List Symbol)
  version : Nat

namespace SimpleWorld

def new : SimpleWorld where
  nextEntityId := 1
  components := Map.new
  sparseComponents := Map.new
  entityComponents := Map.new
  version := 0

def spawnEntity (world : SimpleWorld) : EntityId × SimpleWorld :=
  (world.nextEntityId, { world with nextEntityId := world.nextEntityId + 1 })

def addComponentWithStorage (world : SimpleWorld) (entityId : EntityId) (componentType : Symbol)
    (data : Bytes) (storage : ComponentStorage) : SimpleWorld :=
  let routed : SimpleWorld := match storage with
    | .Table => { world with components := world.components.set (entityId, componentType) data }
    | .Sparse =>
      { world with sparseComponents := world.sparseComponents.set (entityId, componentType) data }
  let types := (world.entityComponents.get entityId).getD []
  -- the type is appended only if the scan of the list does not find it
  let types := if componentType ∈ types then types else types ++ [componentType]
  { routed with
    version := world.version + 1
    entityComponents := world.entityComponents.set entityId types }

def addComponent (world : SimpleWorld) (entityId : EntityId) (componentType : Symbol)
    (data : Bytes) : SimpleWorld :=
  world.addComponentWithStorage entityId componentType data .Table

def getComponent (world : SimpleWorld) (entityId : EntityId) (componentType : Symbol) : Option Bytes :=
  (world.components.get (entityId, componentType)).or
    (world.sparseComponents.get (entityId, componentType))

def hasComponent (world : SimpleWorld) (entityId : EntityId) (componentType : Symbol) : Bool :=
  world.components.containsKey (entityId, componentType) ||
    world.sparseComponents.containsKey (entityId, componentType)

-- The two removals of `remove_component`: the sparse map is asked only when
-- the table map had no entry.
def removeFromMaps (world : SimpleWorld) (key : EntityId × Symbol) : Option Unit × SimpleWorld :=
  match world.components.remove key with
  | (some (), components) => (some (), { world with components })
  | (none, components) =>
    let (removed, sparseComponents) := world.sparseComponents.remove key
    (removed, { world with components, sparseComponents })

-- `remove_component` keeps the list of an entity only while a type is left in it.
def dropType (world : SimpleWorld) (entityId : EntityId) (componentType : Symbol) : SimpleWorld :=
  match world.entityComponents.get entityId with
  | none => world
  | some types =>
    let newTypes := types.filter (· ≠ componentType)
    if newTypes.isEmpty then
      { world with entityComponents := world.entityComponents.erase entityId }
    else
      { world with entityComponents := world.entityComponents.set entityId newTypes }

def removeComponent (world : SimpleWorld) (entityId : EntityId) (componentType : Symbol) :
    Bool × SimpleWorld :=
  match { world with version := world.version + 1 }.removeFromMaps (entityId, componentType) with
  | (some (), world) => (true, world.dropType entityId componentType)
  | (none, world) => (false, world)

-- The queries walk the entities that have a type list, in the order of their ids.
def getEntitiesWithComponent (world : SimpleWorld) (componentType : Symbol) : List EntityId :=
  world.entityComponents.keys.filter fun key =>
    match world.entityComponents.get key with
    | some types => componentType ∈ types
    | none => false

def getTableEntitiesWithComponent (world : SimpleWorld) (componentType : Symbol) : List EntityId :=
  world.entityComponents.keys.filter fun key => world.components.containsKey (key, componentType)

def getAllEntitiesWithComponent (world : SimpleWorld) (componentType : Symbol) : List EntityId :=
  world.entityComponents.keys.filter fun key =>
    world.components.containsKey (key, componentType) ||
      world.sparseComponents.containsKey (key, componentType)

def despawnEntity (world : SimpleWorld) (entityId : EntityId) : SimpleWorld :=
  let types := (world.entityComponents.get entityId).getD []
  { world with
    version := world.version + 1
    components := types.foldl (fun map t => map.erase (entityId, t)) world.components
    sparseComponents := types.foldl (fun map t => map.erase (entityId, t)) world.sparseComponents
    entityComponents := world.entityComponents.erase entityId }

inductive Op where
  | spawnEntity
  | addComponentWithStorage (entityId : EntityId) (componentType : Symbol) (data : Bytes)
      (storage : ComponentStorage)
  | removeComponent (entityId : EntityId) (componentType : Symbol)
  | despawnEntity (entityId : EntityId)

def step (world : SimpleWorld) : Op → SimpleWorld
  | .spawnEntity => world.spawnEntity.2
  | .addComponentWithStorage entityId componentType data storage =>
    world.addComponentWithStorage entityId componentType data storage
  | .removeComponent entityId componentType => (world.removeComponent entityId componentType).2
  | .despawnEntity entityId => world.despawnEntity entityId

end SimpleWorld

end Cougr
