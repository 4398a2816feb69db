import Cougr.SimpleWorld
import Cougr.Library.KeyStore
import Cougr.Library.KeyedList

namespace Cougr

inductive CougrError where
  | EntityNotFound
  | ComponentNotFound
  | DeserializationFailed
  | InvalidDataLength
  | IndexOutOfBounds
  | ResourceNotFound
  | StorageError
  deriving DecidableEq

structure WorldMetadata where
  nextEntityId : EntityId
  version : Nat
  entityCount : Nat
  entityIds : List EntityId
  deriving DecidableEq

-- The entries of persistent storage that belong to a world.
inductive WorldKey where
  | metaKey
  | entityKey (entityId : EntityId)
  | componentKey (entityId : EntityId) (componentType : Symbol)
  deriving DecidableEq

abbrev WorldKey.Value : WorldKey → Type
  | .metaKey => WorldMetadata
  | .entityKey _ => List Symbol
  | .componentKey _ _ => Bytes

-- The value under which the host keeps the entry.
def WorldKey.hostKey : WorldKey → Symbol ⊕ (Symbol × EntityId) ⊕ (Symbol × EntityId × Symbol)
  | .metaKey => .inl (Symbol.new "cougr_meta")
  | .entityKey entityId => .inr (.inl (Symbol.new "cougr_ent", entityId))
  | .componentKey entityId componentType =>
    .inr (.inr (Symbol.new "cougr_cmp", entityId, componentType))

theorem WorldKey.hostKey_injective : Function.Injective WorldKey.hostKey := by
  intro first second h
  cases first <;> cases second <;> simp_all [hostKey]

abbrev Storage := KeyStore WorldKey.Value

structure DirtyTracker where
  dirtyEntities : List EntityId
  dirtyComponents : List (EntityId × Symbol)
  despawned : List EntityId
  newEntities : List EntityId
  metaDirty : Bool
  deriving DecidableEq

namespace DirtyTracker

def new : DirtyTracker where
  dirtyEntities := []
  dirtyComponents := []
  despawned := []
  newEntities := []
  metaDirty := false

-- The sets are lists that are searched before something is pushed.
def push {α : Type} [DecidableEq α] (items : List α) (item : α) : List α :=
  if item ∈ items then items else items ++ [item]

def markEntityDirty (self : DirtyTracker) (entityId : EntityId) : DirtyTracker :=
  { self with dirtyEntities := push self.dirtyEntities entityId }

def markComponentDirty (self : DirtyTracker) (entityId : EntityId) (componentType : Symbol) :
    DirtyTracker :=
  { self with dirtyComponents := push self.dirtyComponents (entityId, componentType) }

def markDespawned (self : DirtyTracker) (entityId : EntityId) : DirtyTracker :=
  { self with despawned := push self.despawned entityId }

def markNewEntity (self : DirtyTracker) (entityId : EntityId) : DirtyTracker :=
  { self with newEntities := push self.newEntities entityId, metaDirty := true }

def markMetaDirty (self : DirtyTracker) : DirtyTracker := { self with metaDirty := true }

def isDirty (self : DirtyTracker) : Bool :=
  self.metaDirty || !self.dirtyEntities.isEmpty || !self.dirtyComponents.isEmpty ||
    !self.despawned.isEmpty || !self.newEntities.isEmpty

def clear (_ : DirtyTracker) : DirtyTracker := new

end DirtyTracker

structure LoadedEntity where
  entityId : EntityId
  componentTypes : List Symbol

structure LoadedComponent where
  entityId : EntityId
  componentType : Symbol
  data : Bytes

-- The pair that the scans of the loaded components compare.
def LoadedComponent.key (lc : LoadedComponent) : EntityId × Symbol := (lc.entityId, lc.componentType)

structure StorageWorld where
  metadata : WorldMetadata
  loadedEntities : List LoadedEntity
  loadedComponents : List LoadedComponent
  dirty : DirtyTracker

namespace StorageWorld

open KeyedList

def freshMetadata : WorldMetadata where
  nextEntityId := 1
  version := 0
  entityCount := 0
  entityIds := []

def loadMetadata (env : Storage) : StorageWorld where
  metadata := (env.get .metaKey : Option WorldMetadata).getD freshMetadata
  loadedEntities := []
  loadedComponents := []
  dirty := .new

def isLoaded (self : StorageWorld) (entityId : EntityId) : Bool :=
  self.loadedEntities.any fun le => le.entityId = entityId

-- The listed components of an entity that storage has data for.
def storedComponents (env : Storage) (entityId : EntityId) (componentTypes : List Symbol) :
    List LoadedComponent :=
  componentTypes.filterMap fun componentType =>
    (env.get (.componentKey entityId componentType)).map fun data => { entityId, componentType, data }

def loadEntity (self : StorageWorld) (env : Storage) (entityId : EntityId) :
    Except CougrError Unit × StorageWorld :=
  if self.isLoaded entityId then (.ok (), self)
  else
    match env.get (.entityKey entityId) with
    | none => (.error .EntityNotFound, self)
    | some componentTypes =>
      (.ok (), { self with
        loadedComponents := self.loadedComponents ++ storedComponents env entityId componentTypes
        loadedEntities := self.loadedEntities ++ [{ entityId, componentTypes }] })

def loadEntities (self : StorageWorld) (env : Storage) : List EntityId → Except CougrError Unit × StorageWorld
  | [] => (.ok (), self)
  | entityId :: rest =>
    match self.loadEntity env entityId with
    -- what comes before a missing entity stays loaded
    | (.error error, world) => (.error error, world)
    | (.ok (), world) => world.loadEntities env rest

def spawnEntity (self : StorageWorld) : EntityId × StorageWorld :=
  let id := self.metadata.nextEntityId
  (id, { self with
    metadata := { self.metadata with
      nextEntityId := self.metadata.nextEntityId + 1
      entityCount := self.metadata.entityCount + 1
      entityIds := self.metadata.entityIds ++ [id] }
    loadedEntities := self.loadedEntities ++ [{ entityId := id, componentTypes := [] }]
    dirty := (self.dirty.markNewEntity id).markEntityDirty id })

def addType (componentType : Symbol) (componentTypes : List Symbol) : List Symbol :=
  if componentType ∈ componentTypes then componentTypes else componentTypes ++ [componentType]

def addComponent (self : StorageWorld) (entityId : EntityId) (componentType : Symbol) (data : Bytes) :
    StorageWorld :=
  { self with
    -- an entity that is not loaded gets a list with this type alone
    loadedEntities :=
      if self.isLoaded entityId then
        modifyFirst LoadedEntity.entityId entityId
          (fun le => { le with componentTypes := addType componentType le.componentTypes })
          self.loadedEntities
      else self.loadedEntities ++ [{ entityId, componentTypes := [componentType] }]
    loadedComponents :=
      if self.loadedComponents.any fun lc => lc.key = (entityId, componentType) then
        modifyFirst LoadedComponent.key (entityId, componentType) (fun lc => { lc with data })
          self.loadedComponents
      else self.loadedComponents ++ [{ entityId, componentType, data }]
    metadata := { self.metadata with version := self.metadata.version + 1 }
    dirty := ((self.dirty.markEntityDirty entityId).markComponentDirty entityId componentType).markMetaDirty }

def getComponent (self : StorageWorld) (entityId : EntityId) (componentType : Symbol) : Option Bytes :=
  (lookup LoadedComponent.key (entityId, componentType) self.loadedComponents).map LoadedComponent.data

def hasComponent (self : StorageWorld) (entityId : EntityId) (componentType : Symbol) : Bool :=
  self.loadedComponents.any fun lc => lc.key = (entityId, componentType)

def removeComponent (self : StorageWorld) (entityId : EntityId) (componentType : Symbol) :
    Bool × StorageWorld :=
  let retained := removeKey LoadedComponent.key (entityId, componentType) self.loadedComponents
  if retained.length < self.loadedComponents.length then
    (true, { self with
      loadedComponents := retained
      loadedEntities :=
        modifyFirst LoadedEntity.entityId entityId
          (fun le => { le with componentTypes := le.componentTypes.filter (· ≠ componentType) })
          self.loadedEntities
      metadata := { self.metadata with version := self.metadata.version + 1 }
      dirty := ((self.dirty.markEntityDirty entityId).markComponentDirty entityId
        componentType).markMetaDirty })
  else (false, { self with loadedComponents := retained })

def despawnEntity (self : StorageWorld) (entityId : EntityId) : StorageWorld :=
  { self with
    loadedComponents := self.loadedComponents.filter fun lc => lc.entityId ≠ entityId
    loadedEntities := removeKey LoadedEntity.entityId entityId self.loadedEntities
    -- the count saturates at zero
    metadata := { self.metadata with
      entityIds := self.metadata.entityIds.filter (· ≠ entityId)
      entityCount := self.metadata.entityCount - 1
      version := self.metadata.version + 1 }
    dirty := (self.dirty.markDespawned entityId).markMetaDirty }

def writeMetadata (self : StorageWorld) (env : Storage) : Storage :=
  if self.dirty.metaDirty then env.set .metaKey self.metadata else env

def writeEntity (self : StorageWorld) (env : Storage) (entityId : EntityId) : Storage :=
  match lookup LoadedEntity.entityId entityId self.loadedEntities with
  | some le => env.set (.entityKey entityId) le.componentTypes
  | none => env

def writeComponent (self : StorageWorld) (env : Storage) (entry : EntityId × Symbol) : Storage :=
  if entry.1 ∈ self.dirty.despawned then env
  else
    match lookup LoadedComponent.key entry self.loadedComponents with
    | some lc => env.set (.componentKey entry.1 entry.2) lc.data
    | none => env

-- The component entries to remove are read off the stored list.
def eraseDespawned (env : Storage) (entityId : EntityId) : Storage :=
  let types := (env.get (.entityKey entityId) : Option (List Symbol)).getD []
  ((types.map (WorldKey.componentKey entityId)).foldl KeyStore.remove env).remove (.entityKey entityId)

def flush (self : StorageWorld) (env : Storage) : StorageWorld × Storage :=
  if ¬self.dirty.isDirty then (self, env)
  else
    let env := self.writeMetadata env
    let env := self.dirty.dirtyEntities.foldl self.writeEntity env
    let env := self.dirty.dirtyComponents.foldl self.writeComponent env
    let env := self.dirty.despawned.foldl eraseDespawned env
    ({ self with dirty := self.dirty.clear }, env)

inductive Op where
  | loadEntity (entityId : EntityId)
  | spawnEntity
  | addComponent (entityId : EntityId) (componentType : Symbol) (data : Bytes)
  | removeComponent (entityId : EntityId) (componentType : Symbol)
  | despawnEntity (entityId : EntityId)
  deriving DecidableEq

-- Between two flushes storage is only read.
def step (env : Storage) (world : StorageWorld) : Op → StorageWorld
  | .loadEntity entityId => (world.loadEntity env entityId).2
  | .spawnEntity => world.spawnEntity.2
  | .addComponent entityId componentType data => world.addComponent entityId componentType data
  | .removeComponent entityId componentType => (world.removeComponent entityId componentType).2
  | .despawnEntity entityId => world.despawnEntity entityId

end StorageWorld

end Cougr
