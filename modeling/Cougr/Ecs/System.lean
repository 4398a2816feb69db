import Cougr.Ecs.Event
import Cougr.Ecs.World.Views
import Cougr.SimpleWorld.Typed

namespace Cougr.Ecs

open SimpleWorld (CoreComponent)

-- The world with the events that wait in it.
structure EventWorld extends World where
  events : List Event

namespace EventWorld

def new : EventWorld := { World.new with events := [] }

def sendEvent (self : EventWorld) (event : Event) : EventWorld := { self with events := self.events ++ [event] }

def getEvents (self : EventWorld) (eventType : Symbol) : List Event :=
  self.events.filter fun event => event.eventType = eventType

def clearEvents (self : EventWorld) : EventWorld := { self with events := [] }

-- The registry of component types stays.
def clearEntities (self : EventWorld) : EventWorld :=
  { self with entities := EntityManager.new, storage := Storage.new }

def clearResources (self : EventWorld) : EventWorld := { self with resources := [] }

def clear (self : EventWorld) : EventWorld := self.clearEntities.clearResources.clearEvents

end EventWorld

-- The systems look entities and events up by position; `none` would be an `unwrap` of nothing.

def MovementSystem.run (world : EventWorld) : Option EventWorld := do
  let entitiesWithMovement := world.queryEntities [CoreComponent.Position.symbol, CoreComponent.Velocity.symbol]
  (List.range entitiesWithMovement.length).foldlM (fun world i => do
    let _entityId ← entitiesWithMovement[i]?
    return world) world

namespace CollisionSystem

def physical : Symbol := symbolShort "physical"

def collisionEvent (entityA entityB : EntityId) : CollisionEvent where
  entityA := UInt64.ofNat entityA.id
  entityB := UInt64.ofNat entityB.id
  collisionType := physical

variable (vals : SymbolVals)

def collide (entityA entityB : EntityId) : Event :=
  let eventData := (CollisionEvent.trait vals).serialize (collisionEvent entityA entityB)
  Event.new (CollisionEvent.trait vals).eventType eventData

-- The inner loop, for the partners `j` of the entity at `i`.
def collideWith (entities : List EntityId) (i : Nat) (world : EventWorld) : Option EventWorld :=
  (List.range' (i + 1) (entities.length - (i + 1))).foldlM (fun world j => do
    let entityA ← entities[i]?
    let entityB ← entities[j]?
    return world.sendEvent (collide vals entityA entityB)) world

def run (world : EventWorld) : Option EventWorld :=
  let entitiesWithCollision :=
    world.queryEntities [CoreComponent.Position.symbol, (CollisionEvent.trait vals).eventType]
  (List.range entitiesWithCollision.length).foldlM
    (fun world i => collideWith vals entitiesWithCollision i world) world

end CollisionSystem

-- What a damage event is about is worked out and dropped.
def HealthSystem.run (vals : SymbolVals) (world : EventWorld) : Option EventWorld := do
  let damageEvents := world.getEvents (DamageEvent.trait vals).eventType
  (List.range damageEvents.length).foldlM (fun world i => do
    let event ← damageEvents[i]?
    let _targetEntity := ((DamageEvent.trait vals).deserialize event.data).map fun damageEvent =>
      (⟨damageEvent.targetEntity.toNat, 0⟩ : EntityId)
    return world) world

namespace EventWorld

-- Whatever is done to a world and its events. The fields are public: a writer may be lent the events, and
-- types may be registered ahead of their first use.
inductive Op where
  | world (op : World.Op)
  | registerComponent (componentType : Symbol)
  | addResource (resource : Resource)
  | removeResource (resourceType : Symbol)
  | sendEvent (event : Event)
  | sendWithData (eventType : Symbol) (data : Bytes)
  | sendBatch (batch : List Event)
  | clearEvents
  | clearEntities
  | clearResources
  | clear
  | movementSystem
  | collisionSystem
  | healthSystem

def step (vals : SymbolVals) (self : EventWorld) : Op → Option EventWorld
  | .world op => some { self with toWorld := self.toWorld.step op }
  | .registerComponent componentType =>
    some { self with components := (self.components.registerComponent componentType).2 }
  | .addResource resource => some { self with toWorld := self.toWorld.addResource resource }
  | .removeResource resourceType => some { self with toWorld := (self.toWorld.removeResource resourceType).2 }
  | .sendEvent event => some (self.sendEvent event)
  | .sendWithData eventType data =>
    some { self with events := EventWriter.sendWithData self.events eventType data }
  | .sendBatch batch => some { self with events := EventWriter.sendBatch self.events batch }
  | .clearEvents => some self.clearEvents
  | .clearEntities => some self.clearEntities
  | .clearResources => some self.clearResources
  | .clear => some self.clear
  | .movementSystem => MovementSystem.run self
  | .collisionSystem => CollisionSystem.run vals self
  | .healthSystem => HealthSystem.run vals self

def after (vals : SymbolVals) (ops : List Op) : Option EventWorld := ops.foldlM (step vals) new

end EventWorld

end Cougr.Ecs
