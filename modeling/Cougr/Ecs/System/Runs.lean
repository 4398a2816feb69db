import Cougr.Ecs.System.Collisions

namespace Cougr.Ecs.EventWorld

open World (WellFormed)

variable {vals : SymbolVals} {world : EventWorld}

-- A walk that only looks leaves the world as it is.
theorem foldlM_look {α : Type} (items : List α) (world : EventWorld) :
    (List.range items.length).foldlM (fun world i => do
      let _item ← items[i]?
      return world) world = some world := by
  rw [Positions.foldlM_range (fun world _ => world), List.foldl_fixed]

theorem movementSystem_run (world : EventWorld) : MovementSystem.run world = some world := foldlM_look _ world

theorem healthSystem_run (vals : SymbolVals) (world : EventWorld) : HealthSystem.run vals world = some world :=
  foldlM_look _ world

-- No record lists a type, so nothing collides.
theorem collisionSystem_run (vals : SymbolVals) (h : world.toWorld.WellFormed) :
    CollisionSystem.run vals world = some world := by
  have hnone : CollisionSystem.colliders vals world = [] := by
    refine List.eq_nil_iff_forall_not_mem.mpr fun e he => ?_
    obtain ⟨_, hall⟩ := (World.mem_queryEntities h _ e).mp he
    exact World.not_hasComponent h e _ (hall _ List.mem_cons_self)
  rw [CollisionSystem.run_eq, hnone, Positions.pairs, List.map_nil, List.append_nil]

theorem wellFormed_clearEntities (world : EventWorld) : world.clearEntities.toWorld.WellFormed :=
  ⟨EntityManager.wellFormed_new, Storage.aligned_new, fun _ hentity => absurd hentity List.not_mem_nil⟩

-- The types that an operation on the world gives to the registry.
def worldTypes : World.Op → List Symbol
  | .spawnEmpty => []
  | .spawn components => components.map Component.componentType
  | .addComponentToEntity _ component => [component.componentType]
  | .removeComponentFromEntity _ _ => []
  | .despawn _ => []

def register (registry : ComponentRegistry) (types : List Symbol) : ComponentRegistry :=
  types.foldl (fun registry t => (registry.registerComponent t).2) registry

-- The events that wait after an operation, and the types that it registers.
def eventsAfter (events : List Event) : Op → List Event
  | .sendEvent event => events ++ [event]
  | .sendWithData eventType data => events ++ [Event.new eventType data]
  | .sendBatch batch => events ++ batch
  | .clearEvents => []
  | .clear => []
  | _ => events

def types : Op → List Symbol
  | .world op => worldTypes op
  | .registerComponent componentType => [componentType]
  | _ => []

-- What one operation does to a world whose records list no types.
structure Steps (world : EventWorld) (op : Op) (next : EventWorld) : Prop where
  wellFormed : next.toWorld.WellFormed
  events : next.events = eventsAfter world.events op
  registry : next.components = register world.components (types op)

theorem components_step (world : World) (op : World.Op) :
    (world.step op).components = register world.components (worldTypes op) := by
  cases op with
  | spawnEmpty => rfl
  | spawn components =>
      have hadd : ∀ (components : List Component) (world : World) (e : EntityId),
          (components.foldl (fun world component => world.addComponentToEntity e component) world).components =
            register world.components (components.map Component.componentType) := by
        intro components
        induction components with
        | nil => exact fun _ _ => rfl
        | cons component components ih => exact fun world e => ih (world.addComponentToEntity e component) e
      exact hadd components world.spawnEmpty.2 world.spawnEmpty.1.id
  | addComponentToEntity e component => rfl
  | removeComponentFromEntity e t => rfl
  | despawn e => rfl

theorem removeResource_keeps (h : world.toWorld.WellFormed) (t : Symbol) :
    (world.toWorld.removeResource t).2.WellFormed ∧
      (world.toWorld.removeResource t).2.components = world.components := by
  unfold World.removeResource
  dsimp only
  split_ifs
  · exact ⟨⟨h.entities, h.storage, h.untyped⟩, rfl⟩
  · exact ⟨h, rfl⟩

theorem step_spec (vals : SymbolVals) (h : world.toWorld.WellFormed) (op : Op) :
    ∃ next, world.step vals op = some next ∧ Steps world op next := by
  cases op with
  | world op => exact ⟨_, rfl, World.wellFormed_step h op, rfl, components_step world.toWorld op⟩
  | registerComponent t => exact ⟨_, rfl, ⟨h.entities, h.storage, h.untyped⟩, rfl, rfl⟩
  | addResource resource => exact ⟨_, rfl, ⟨h.entities, h.storage, h.untyped⟩, rfl, rfl⟩
  | removeResource t =>
      obtain ⟨hnext, hregistry⟩ := removeResource_keeps h t
      exact ⟨_, rfl, hnext, rfl, hregistry⟩
  | sendEvent event => exact ⟨_, rfl, h, rfl, rfl⟩
  | sendWithData t data => exact ⟨_, rfl, h, rfl, rfl⟩
  | sendBatch batch => exact ⟨_, rfl, h, EventWriter.sendBatch_eq world.events batch, rfl⟩
  | clearEvents => exact ⟨_, rfl, h, rfl, rfl⟩
  | clearEntities => exact ⟨_, rfl, wellFormed_clearEntities world, rfl, rfl⟩
  | clearResources => exact ⟨_, rfl, ⟨h.entities, h.storage, h.untyped⟩, rfl, rfl⟩
  | clear =>
      have hempty := wellFormed_clearEntities world
      exact ⟨_, rfl, ⟨hempty.entities, hempty.storage, hempty.untyped⟩, rfl, rfl⟩
  | movementSystem => exact ⟨world, movementSystem_run world, h, rfl, rfl⟩
  | collisionSystem => exact ⟨world, collisionSystem_run vals h, h, rfl, rfl⟩
  | healthSystem => exact ⟨world, healthSystem_run vals world, h, rfl, rfl⟩

-- The events sent since they were last cleared, and the types in the order of their registration.
def waiting (ops : List Op) : List Event := Transition.run eventsAfter [] ops

def registered (ops : List Op) : List Symbol := ops.flatMap types

theorem after_spec (vals : SymbolVals) (ops : List Op) : ∃ world, after vals ops = some world ∧
    world.toWorld.WellFormed ∧ world.events = waiting ops ∧
    world.components = register ComponentRegistry.new (registered ops) := by
  induction ops using List.reverseRecOn with
  | nil => exact ⟨new, rfl, World.wellFormed_new, rfl, rfl⟩
  | append_singleton past op ih =>
      obtain ⟨world, hafter, hworld, hevents, hregistry⟩ := ih
      obtain ⟨next, hstep, hnext⟩ := step_spec vals hworld op
      refine ⟨next, ?_, hnext.wellFormed, ?_, ?_⟩
      · rw [after, List.foldlM_append, ← after, hafter, Option.bind_eq_bind, Option.bind_some,
          List.foldlM_cons, hstep]
        rfl
      · rw [hnext.events, hevents, waiting, waiting, Transition.run_concat]
      · rw [hnext.registry, hregistry, registered, registered, List.flatMap_append,
          List.flatMap_singleton, register, register, register, List.foldl_append]

end Cougr.Ecs.EventWorld
