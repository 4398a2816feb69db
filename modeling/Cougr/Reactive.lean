import Cougr.SimpleWorld

namespace Cougr

structure ChangeTracker where
  added : List (EntityId × Symbol)
  removed : List (EntityId × Symbol)
  modified : List (EntityId × Symbol)
  tick : Nat

namespace ChangeTracker

def new : ChangeTracker where
  added := []
  removed := []
  modified := []
  tick := 0

def recordAdd (self : ChangeTracker) (entityId : EntityId) (componentType : Symbol) : ChangeTracker :=
  { self with added := self.added ++ [(entityId, componentType)] }

def recordRemove (self : ChangeTracker) (entityId : EntityId) (componentType : Symbol) : ChangeTracker :=
  { self with removed := self.removed ++ [(entityId, componentType)] }

def recordModify (self : ChangeTracker) (entityId : EntityId) (componentType : Symbol) : ChangeTracker :=
  { self with modified := self.modified ++ [(entityId, componentType)] }

def wasAdded (self : ChangeTracker) (entityId : EntityId) (componentType : Symbol) : Bool :=
  self.added.any fun record => record = (entityId, componentType)

def wasRemoved (self : ChangeTracker) (entityId : EntityId) (componentType : Symbol) : Bool :=
  self.removed.any fun record => record = (entityId, componentType)

def wasModified (self : ChangeTracker) (entityId : EntityId) (componentType : Symbol) : Bool :=
  self.modified.any fun record => record = (entityId, componentType)

-- The tick is advanced by a call of its own.
def clear (self : ChangeTracker) : ChangeTracker := { self with added := [], removed := [], modified := [] }

end ChangeTracker

structure TrackedWorld where
  world : SimpleWorld
  tracker : ChangeTracker

namespace TrackedWorld

def new (world : SimpleWorld) : TrackedWorld := ⟨world, .new⟩

def spawnEntity (self : TrackedWorld) : EntityId × TrackedWorld :=
  let (id, world) := self.world.spawnEntity
  (id, { self with world })

def addComponentWithStorage (self : TrackedWorld) (entityId : EntityId) (componentType : Symbol) (data : Bytes)
    (storage : ComponentStorage) : TrackedWorld :=
  let existed := self.world.hasComponent entityId componentType
  let world := self.world.addComponentWithStorage entityId componentType data storage
  if existed then { world, tracker := self.tracker.recordModify entityId componentType }
  else { world, tracker := self.tracker.recordAdd entityId componentType }

def addComponent (self : TrackedWorld) (entityId : EntityId) (componentType : Symbol) (data : Bytes) :
    TrackedWorld :=
  let existed := self.world.hasComponent entityId componentType
  let world := self.world.addComponent entityId componentType data
  if existed then { world, tracker := self.tracker.recordModify entityId componentType }
  else { world, tracker := self.tracker.recordAdd entityId componentType }

def removeComponent (self : TrackedWorld) (entityId : EntityId) (componentType : Symbol) : Bool × TrackedWorld :=
  let (removed, world) := self.world.removeComponent entityId componentType
  if removed then (removed, { world, tracker := self.tracker.recordRemove entityId componentType })
  else (removed, { self with world })

def getComponent (self : TrackedWorld) (entityId : EntityId) (componentType : Symbol) : Option Bytes :=
  self.world.getComponent entityId componentType

-- The types are read off the list of the entity, before the world despawns it.
def despawnEntity (self : TrackedWorld) (entityId : EntityId) : TrackedWorld :=
  let tracker := match self.world.entityComponents.get entityId with
    | some types => types.foldl (fun tracker t => tracker.recordRemove entityId t) self.tracker
    | none => self.tracker
  { world := self.world.despawnEntity entityId, tracker }

end TrackedWorld

-- What is registered for a type, in the order of the registrations.
def registeredFor {Callback : Type} (registrations : List (Symbol × Callback)) (componentType : Symbol) :
    List Callback :=
  registrations.filterMap fun (ctype, callback) => if ctype = componentType then some callback else none

-- A hook is a function pointer; it is told what happened and nothing else.
structure HookRegistry (OnAddHook OnRemoveHook : Type) where
  addHooks : List (Symbol × OnAddHook)
  removeHooks : List (Symbol × OnRemoveHook)

inductive HookCall (OnAddHook OnRemoveHook : Type) where
  | onAdd (hook : OnAddHook) (entityId : EntityId) (componentType : Symbol) (data : Bytes)
  | onRemove (hook : OnRemoveHook) (entityId : EntityId) (componentType : Symbol)

namespace HookRegistry

variable {OnAddHook OnRemoveHook : Type} (self : HookRegistry OnAddHook OnRemoveHook)

def new : HookRegistry OnAddHook OnRemoveHook := ⟨[], []⟩

def onAdd (componentType : Symbol) (hook : OnAddHook) : HookRegistry OnAddHook OnRemoveHook :=
  { self with addHooks := self.addHooks ++ [(componentType, hook)] }

def onRemove (componentType : Symbol) (hook : OnRemoveHook) : HookRegistry OnAddHook OnRemoveHook :=
  { self with removeHooks := self.removeHooks ++ [(componentType, hook)] }

def fireOnAdd (entityId : EntityId) (componentType : Symbol) (data : Bytes) :
    List (HookCall OnAddHook OnRemoveHook) :=
  (registeredFor self.addHooks componentType).map fun hook => .onAdd hook entityId componentType data

def fireOnRemove (entityId : EntityId) (componentType : Symbol) : List (HookCall OnAddHook OnRemoveHook) :=
  (registeredFor self.removeHooks componentType).map fun hook => .onRemove hook entityId componentType

end HookRegistry

structure HookedWorld (OnAddHook OnRemoveHook : Type) where
  world : SimpleWorld
  hooks : HookRegistry OnAddHook OnRemoveHook

namespace HookedWorld

variable {OnAddHook OnRemoveHook : Type} (self : HookedWorld OnAddHook OnRemoveHook)

-- Each operation comes with the calls of hooks that it makes.

def spawnEntity : EntityId × HookedWorld OnAddHook OnRemoveHook :=
  let (id, world) := self.world.spawnEntity
  (id, { self with world })

def addComponent (entityId : EntityId) (componentType : Symbol) (data : Bytes) :
    List (HookCall OnAddHook OnRemoveHook) × HookedWorld OnAddHook OnRemoveHook :=
  let world := self.world.addComponent entityId componentType data
  (self.hooks.fireOnAdd entityId componentType data, { self with world })

-- The hooks are fired first, whatever the removal then finds.
def removeComponent (entityId : EntityId) (componentType : Symbol) :
    List (HookCall OnAddHook OnRemoveHook) × Bool × HookedWorld OnAddHook OnRemoveHook :=
  let calls := self.hooks.fireOnRemove entityId componentType
  let (removed, world) := self.world.removeComponent entityId componentType
  (calls, removed, { self with world })

def despawnEntity (entityId : EntityId) :
    List (HookCall OnAddHook OnRemoveHook) × HookedWorld OnAddHook OnRemoveHook :=
  let calls := match self.world.entityComponents.get entityId with
    | some types => types.flatMap (self.hooks.fireOnRemove entityId)
    | none => []
  (calls, { self with world := self.world.despawnEntity entityId })

end HookedWorld

inductive ComponentEventKind where
  | Added
  | Removed
  deriving DecidableEq

structure ComponentEvent where
  entityId : EntityId
  componentType : Symbol
  kind : ComponentEventKind

structure ObserverRegistry (Observer : Type) where
  observers : List (Symbol × ComponentEventKind × Observer)

-- An observer may read the world as it is when the observer is called.
structure ObserverCall (Observer : Type) where
  observer : Observer
  event : ComponentEvent
  world : SimpleWorld

namespace ObserverRegistry

variable {Observer : Type} (self : ObserverRegistry Observer)

def new : ObserverRegistry Observer := ⟨[]⟩

def onAdd (componentType : Symbol) (observer : Observer) : ObserverRegistry Observer :=
  ⟨self.observers ++ [(componentType, .Added, observer)]⟩

def onRemove (componentType : Symbol) (observer : Observer) : ObserverRegistry Observer :=
  ⟨self.observers ++ [(componentType, .Removed, observer)]⟩

def fire (event : ComponentEvent) (world : SimpleWorld) : List (ObserverCall Observer) :=
  self.observers.filterMap fun (ctype, kind, observer) =>
    if ctype = event.componentType ∧ kind = event.kind then some { observer, event, world } else none

end ObserverRegistry

structure ObservedWorld (Observer : Type) where
  world : SimpleWorld
  observers : ObserverRegistry Observer

namespace ObservedWorld

variable {Observer : Type} (self : ObservedWorld Observer)

def spawnEntity : EntityId × ObservedWorld Observer :=
  let (id, world) := self.world.spawnEntity
  (id, { self with world })

def addComponent (entityId : EntityId) (componentType : Symbol) (data : Bytes) :
    List (ObserverCall Observer) × ObservedWorld Observer :=
  let world := self.world.addComponent entityId componentType data
  let event := { entityId, componentType, kind := .Added }
  (self.observers.fire event world, { self with world })

def removeComponent (entityId : EntityId) (componentType : Symbol) :
    List (ObserverCall Observer) × Bool × ObservedWorld Observer :=
  let (removed, world) := self.world.removeComponent entityId componentType
  let event := { entityId, componentType, kind := .Removed }
  let calls := if removed then self.observers.fire event world else []
  (calls, removed, { self with world })

-- The observers are called while the entity is still there.
def despawnEntity (entityId : EntityId) : List (ObserverCall Observer) × ObservedWorld Observer :=
  let calls := match self.world.entityComponents.get entityId with
    | some types => types.flatMap fun t =>
      self.observers.fire { entityId, componentType := t, kind := .Removed } self.world
    | none => []
  (calls, { self with world := self.world.despawnEntity entityId })

end ObservedWorld

end Cougr
