import Cougr.SimpleWorld

namespace Cougr

abbrev ArchetypeId := Nat

-- The archetypes of a world are indexed by their type lists; the order is found once.
instance : Std.TransOrd (List Symbol) := inferInstance

structure Archetype where
  id : ArchetypeId
  componentTypes : List Symbol
  entities : List EntityId
  data : Map (EntityId × Symbol) Bytes

namespace Archetype

def new (id : ArchetypeId) (componentTypes : List Symbol) : Archetype where
  id := id
  componentTypes := componentTypes
  entities := []
  data := Map.new

def hasComponentType (self : Archetype) (componentType : Symbol) : Bool :=
  componentType ∈ self.componentTypes

def «matches» (self : Archetype) (required : List Symbol) : Bool :=
  required.all self.hasComponentType

def addEntity (self : Archetype) (entityId : EntityId) : Archetype :=
  { self with entities := self.entities ++ [entityId] }

-- One turn of the loop of `remove_entity`: the component goes from the data to the extract.
def extractType (entityId : EntityId) (state : Map Symbol Bytes × Map (EntityId × Symbol) Bytes)
    (ct : Symbol) : Map Symbol Bytes × Map (EntityId × Symbol) Bytes :=
  match state.2.get (entityId, ct) with
  | some d => (state.1.set ct d, state.2.erase (entityId, ct))
  | none => state

def removeEntity (self : Archetype) (entityId : EntityId) : Map Symbol Bytes × Archetype :=
  let entities := self.entities.filter (· ≠ entityId)
  let (extracted, data) := self.componentTypes.foldl (extractType entityId) (Map.new, self.data)
  (extracted, { self with entities, data })

def getComponent (self : Archetype) (entityId : EntityId) (componentType : Symbol) : Option Bytes :=
  self.data.get (entityId, componentType)

def setComponent (self : Archetype) (entityId : EntityId) (componentType : Symbol) (data : Bytes) :
    Archetype :=
  { self with data := self.data.set (entityId, componentType) data }

-- The loop that copies extracted data into the target of a migration.
def copyExtracted (self : Archetype) (entityId : EntityId) (extracted : Map Symbol Bytes) : Archetype :=
  extracted.keys.foldl (fun target key =>
    match extracted.get key with
    | some d => target.setComponent entityId key d
    | none => target) self

end Archetype

structure ArchetypeWorld where
  nextEntityId : EntityId
  nextArchetypeId : ArchetypeId
  archetypes : Map ArchetypeId Archetype
  archetypeIndex : Map (List Symbol) ArchetypeId
  entityArchetype : Map EntityId ArchetypeId
  version : Nat

namespace ArchetypeWorld

def new : ArchetypeWorld where
  nextEntityId := 1
  nextArchetypeId := 0
  archetypes := Map.new
  archetypeIndex := Map.new
  entityArchetype := Map.new
  version := 0

def spawnEntity (self : ArchetypeWorld) : EntityId × ArchetypeWorld :=
  (self.nextEntityId, { self with nextEntityId := self.nextEntityId + 1 })

def getOrCreateArchetype (self : ArchetypeWorld) (componentTypes : List Symbol) :
    ArchetypeId × ArchetypeWorld :=
  match self.archetypeIndex.get componentTypes with
  | some existing => (existing, self)
  | none =>
    let id := self.nextArchetypeId
    (id, { self with
      nextArchetypeId := self.nextArchetypeId + 1
      archetypes := self.archetypes.set id (Archetype.new id componentTypes)
      archetypeIndex := self.archetypeIndex.set componentTypes id })

-- The new type is pushed at the end, then the list is sorted.
def buildNewTypes (existing : List Symbol) (newType : Symbol) : List Symbol :=
  (existing ++ [newType]).mergeSort fun a b => a ≤ b

-- Where every addition and most removals end: the entity enters the archetype of these types,
-- which `fill` gives its components.
def enterArchetype (self : ArchetypeWorld) (entityId : EntityId) (types : List Symbol)
    (fill : Archetype → Archetype) : ArchetypeWorld :=
  let (targetId, self) := self.getOrCreateArchetype types
  let archetypes := match self.archetypes.get targetId with
    | some target => self.archetypes.set targetId (fill (target.addEntity entityId))
    | none => self.archetypes
  { self with archetypes, entityArchetype := self.entityArchetype.set entityId targetId }

def addComponent (self : ArchetypeWorld) (entityId : EntityId) (componentType : Symbol) (data : Bytes) :
    ArchetypeWorld :=
  let self := { self with version := self.version + 1 }
  match self.entityArchetype.get entityId with
  | some archId =>
    match self.archetypes.get archId with
    | some arch =>
      if arch.hasComponentType componentType then
        { self with
          archetypes := self.archetypes.set archId (arch.setComponent entityId componentType data) }
      else
        let newTypes := buildNewTypes arch.componentTypes componentType
        let (extracted, arch) := arch.removeEntity entityId
        let extracted := extracted.set componentType data
        let self := { self with archetypes := self.archetypes.set archId arch }
        self.enterArchetype entityId newTypes fun target => target.copyExtracted entityId extracted
    | none => self
  | none =>
    self.enterArchetype entityId [componentType] fun arch => arch.setComponent entityId componentType data

def removeComponent (self : ArchetypeWorld) (entityId : EntityId) (componentType : Symbol) :
    Bool × ArchetypeWorld :=
  match self.entityArchetype.get entityId with
  | none => (false, self)
  | some archId =>
    match self.archetypes.get archId with
    | none => (false, self)
    | some arch =>
      if ¬arch.hasComponentType componentType then (false, self)
      else
        let self := { self with version := self.version + 1 }
        let newTypes := arch.componentTypes.filter (· ≠ componentType)
        let (extracted, arch) := arch.removeEntity entityId
        let extracted := extracted.erase componentType
        let self := { self with archetypes := self.archetypes.set archId arch }
        if newTypes.isEmpty then
          (true, { self with entityArchetype := self.entityArchetype.erase entityId })
        else
          (true, self.enterArchetype entityId newTypes fun target =>
            target.copyExtracted entityId extracted)

def getComponent (self : ArchetypeWorld) (entityId : EntityId) (componentType : Symbol) : Option Bytes := do
  let archId ← self.entityArchetype.get entityId
  let arch ← self.archetypes.get archId
  arch.getComponent entityId componentType

def hasComponent (self : ArchetypeWorld) (entityId : EntityId) (componentType : Symbol) : Bool :=
  match self.entityArchetype.get entityId with
  | none => false
  | some archId =>
    match self.archetypes.get archId with
    | some arch => arch.hasComponentType componentType
    | none => false

def despawnEntity (self : ArchetypeWorld) (entityId : EntityId) : ArchetypeWorld :=
  match self.entityArchetype.get entityId with
  | none => { self with version := self.version + 1 }
  | some archId =>
    let archetypes := match self.archetypes.get archId with
      | some arch => self.archetypes.set archId (arch.removeEntity entityId).2
      | none => self.archetypes
    { self with
      archetypes
      entityArchetype := self.entityArchetype.erase entityId
      version := self.version + 1 }

-- The members of the matching archetypes, in the order of the archetype ids.
def query (self : ArchetypeWorld) (requiredComponents : List Symbol) : List EntityId :=
  self.archetypes.keys.flatMap fun key =>
    match self.archetypes.get key with
    | some arch => if arch.«matches» requiredComponents then arch.entities else []
    | none => []

inductive Op where
  | spawnEntity
  | addComponent (entityId : EntityId) (componentType : Symbol) (data : Bytes)
  | removeComponent (entityId : EntityId) (componentType : Symbol)
  | despawnEntity (entityId : EntityId)

def step (world : ArchetypeWorld) : Op → ArchetypeWorld
  | .spawnEntity => world.spawnEntity.2
  | .addComponent entityId componentType data => world.addComponent entityId componentType data
  | .removeComponent entityId componentType => (world.removeComponent entityId componentType).2
  | .despawnEntity entityId => world.despawnEntity entityId

def worldAfter (ops : List Op) : ArchetypeWorld := Transition.run step new ops

end ArchetypeWorld

end Cougr
