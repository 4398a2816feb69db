import Cougr.Ecs.World

namespace Cougr.Ecs.World

open Transition

-- The records of the entities, the storage and the queries tell the same.
structure ViewsAgree (world : World) : Prop where
  stored : ∀ e t, world.entityExists e → (world.hasComponent e t ↔ (world.getComponent e t).isSome)
  listed : ∀ e t, world.entityExists e → (world.hasComponent e t ↔ e ∈ world.queryEntities [t])
  queried : ∀ ts e, e ∈ world.queryEntities ts ↔ world.entityExists e ∧ ∀ t ∈ ts, world.hasComponent e t
  once : ∀ ts, (world.queryEntities ts).Nodup

-- Nothing is stored for an entity that is there.
def Bare (world : World) : Prop := ∀ id ∈ world.entities.liveIds, ¬world.Stores id

-- No component is given to an entity, before it is spawned or while it is there.
def GivesNothing (world : World) : Op → Prop
  | .spawnEmpty => ¬world.Stores world.spawnEmpty.1.id.id
  | .spawn components => components = [] ∧ ¬world.Stores (world.spawn components).1.id.id
  | .addComponentToEntity entityId _ => entityId.id ∉ world.entities.liveIds
  | .removeComponentFromEntity _ _ => True
  | .despawn _ => True

section Views

variable {world : World}

theorem exists_iff_mem_liveIds (h : world.WellFormed) (id : Nat) :
    world.entityExists ⟨id, 0⟩ ↔ id ∈ world.entities.liveIds := by
  rw [entityExists, EntityManager.entityExists_iff, EntityManager.liveIds, List.mem_map]
  constructor
  · rintro ⟨entity, hentity, hid⟩
    exact ⟨entity, hentity, by rw [hid]⟩
  · rintro ⟨entity, hentity, rfl⟩
    refine ⟨entity, hentity, ?_⟩
    rw [← h.entities.generation entity hentity]

theorem mem_liveIds_of_exists {e : EntityId} (he : world.entityExists e) : e.id ∈ world.entities.liveIds := by
  obtain ⟨entity, hentity, rfl⟩ := (world.entities.entityExists_iff e).mp he
  exact List.mem_map_of_mem hentity

theorem hasComponent_iff (world : World) (e : EntityId) (t : Symbol) : world.hasComponent e t ↔
    ∃ entity, world.entities.getEntity e = some entity ∧ entity.hasComponent t := by
  rw [hasComponent]
  cases world.entities.getEntity e with
  | none => simp
  | some entity => simp

-- An entity is found under its id.
theorem getEntity_eq_some_iff (h : world.WellFormed) (e : EntityId) (entity : Entity) :
    world.entities.getEntity e = some entity ↔ entity ∈ world.entities.entities ∧ entity.id = e := by
  have hnodup := List.Nodup.of_append_left h.entities.accounts.nodup
  have hids : (world.entities.entities.map Entity.id).Nodup := by
    apply List.Nodup.of_map EntityId.id
    rwa [List.map_map]
  exact KeyedList.lookup_eq_some_iff hids

theorem mem_queryEntities (h : world.WellFormed) (ts : List Symbol) (e : EntityId) :
    e ∈ world.queryEntities ts ↔ world.entityExists e ∧ ∀ t ∈ ts, world.hasComponent e t := by
  simp only [queryEntities, EntityManager.iterEntities, List.mem_map, List.mem_filter, List.all_eq_true,
    hasComponent_iff, getEntity_eq_some_iff h, entityExists, EntityManager.entityExists_iff]
  constructor
  · rintro ⟨entity, ⟨hentity, hall⟩, rfl⟩
    exact ⟨⟨entity, hentity, rfl⟩, fun t ht => ⟨entity, ⟨hentity, rfl⟩, hall t ht⟩⟩
  · rintro ⟨⟨entity, hentity, rfl⟩, hall⟩
    refine ⟨entity, ⟨hentity, fun t ht => ?_⟩, rfl⟩
    obtain ⟨other, ⟨hother, hid⟩, hhas⟩ := hall t ht
    rwa [← h.entities.eq_of_id_eq hother hentity (congrArg EntityId.id hid)]

theorem nodup_queryEntities (h : world.WellFormed) (ts : List Symbol) : (world.queryEntities ts).Nodup := by
  have hnodup := List.Nodup.of_append_left h.entities.accounts.nodup
  apply List.Nodup.of_map EntityId.id
  rw [queryEntities, List.map_map]
  exact hnodup.sublist (List.filter_sublist.map _)

theorem not_hasComponent (h : world.WellFormed) (e : EntityId) (t : Symbol) : ¬world.hasComponent e t := by
  rw [hasComponent_iff]
  rintro ⟨entity, hget, hhas⟩
  have htypes := h.untyped entity ((getEntity_eq_some_iff h e entity).mp hget).1
  rw [Entity.hasComponent, htypes] at hhas
  cases hhas

-- The queries go by the records alone; the records know of no component.
theorem viewsAgree_iff_bare (h : world.WellFormed) : world.ViewsAgree ↔ world.Bare := by
  constructor
  · intro hagree id hlive hstores
    obtain ⟨t, hsome⟩ := (stores_iff h ⟨id, 0⟩).mp hstores
    have hhas := (hagree.stored ⟨id, 0⟩ t ((exists_iff_mem_liveIds h id).mpr hlive)).mpr hsome
    exact not_hasComponent h _ t hhas
  · intro hbare
    refine ⟨fun e t he => ?_, fun e t he => ?_, mem_queryEntities h, nodup_queryEntities h⟩
    · refine iff_of_false (not_hasComponent h e t) fun hsome => ?_
      exact hbare e.id (mem_liveIds_of_exists he) ((stores_iff h e).mpr ⟨t, hsome⟩)
    · rw [mem_queryEntities h, List.forall_mem_singleton]
      exact (and_iff_right he).symm

end Views

section Steps

variable {world : World}

theorem liveIds_spawnEmpty (world : World) :
    world.spawnEmpty.2.entities.liveIds = world.entities.liveIds ++ [world.spawnEmpty.1.id.id] := by
  rw [spawnEmpty, EntityManager.liveIds_spawn, EntityManager.spawn_eq]
  rfl

theorem mem_liveIds_spawnEmpty (world : World) :
    world.spawnEmpty.1.id.id ∈ world.spawnEmpty.2.entities.liveIds := by
  rw [liveIds_spawnEmpty]
  exact List.mem_append_right _ (List.mem_singleton_self _)

-- The new entity is bare if nothing is stored under its number.
theorem bare_spawnEmpty_iff (hbare : world.Bare) :
    world.spawnEmpty.2.Bare ↔ ¬world.Stores world.spawnEmpty.1.id.id := by
  rw [Bare, liveIds_spawnEmpty, List.forall_mem_append, List.forall_mem_singleton]
  exact and_iff_right hbare

theorem bare_spawn_iff (h : world.WellFormed) (hbare : world.Bare) (components : List Component) :
    (world.spawn components).2.Bare ↔ components = [] ∧ ¬world.Stores (world.spawn components).1.id.id := by
  cases components with
  | nil => exact (bare_spawnEmpty_iff hbare).trans (and_iff_right rfl).symm
  | cons component components =>
      refine iff_of_false (fun hnext => ?_) fun hnothing => absurd hnothing.1 (List.cons_ne_nil _ _)
      have hstores := (stores_foldl_add (wellFormed_spawnEmpty h) world.spawnEmpty.1.id (component :: components)
        world.spawnEmpty.1.id.id).mpr (Or.inr ⟨List.cons_ne_nil _ _, rfl⟩)
      have hlive : world.spawnEmpty.1.id.id ∈ (world.spawn (component :: components)).2.entities.liveIds := by
        rw [spawn, entities_foldl_add]
        exact mem_liveIds_spawnEmpty world
      exact hnext _ hlive hstores

theorem bare_step_iff (h : world.WellFormed) (hbare : world.Bare) (op : Op) :
    (world.step op).Bare ↔ world.GivesNothing op := by
  cases op with
  | spawnEmpty => exact bare_spawnEmpty_iff hbare
  | spawn components => exact bare_spawn_iff h hbare components
  | addComponentToEntity entityId component =>
      constructor
      · exact fun hnext hlive => hnext entityId.id hlive
          ((stores_addComponentToEntity h entityId component entityId.id).mpr (Or.inr rfl))
      · intro hdead id hlive hstores
        rcases (stores_addComponentToEntity h entityId component id).mp hstores with hold | rfl
        · exact hbare id hlive hold
        · exact hdead hlive
  | removeComponentFromEntity entityId componentType =>
      refine iff_of_true (fun id hlive hstores => hbare id hlive ?_) trivial
      exact @Storage.mem_entityIds_of_removeComponent _ entityId componentType h.storage ⟨id, 0⟩ hstores
  | despawn entityId =>
      refine iff_of_true ?_ trivial
      rw [step, despawn_eq h]
      intro id hlive
      obtain ⟨entity, hentity, rfl⟩ := List.mem_map.mp hlive
      exact hbare _ (List.mem_map_of_mem (world.entities.mem_of_mem_despawn hentity))

end Steps

-- The views agree throughout a run exactly when no entity has a component in it.
theorem viewsAgree_iff (ops : List Op) :
    (∀ past, past <+: ops → (worldAfter past).ViewsAgree) ↔ StepsMeet step GivesNothing new ops := by
  have hbare : ∀ past, (worldAfter past).ViewsAgree ↔ (worldAfter past).Bare :=
    fun past => viewsAgree_iff_bare (worldAfter_wellFormed past)
  simp only [hbare]
  apply forall_prefix_iff_stepsMeet Bare (fun _ hlive => absurd hlive List.not_mem_nil)
  exact fun past op h => bare_step_iff (worldAfter_wellFormed past) h op

def probe : Component := Component.new (symbolShort "test") [1, 2, 3, 4]

-- What was added to the first entity is read back, and its record does not know of it.
theorem added_component_not_listed :
    ¬(worldAfter [.spawnEmpty, .addComponentToEntity ⟨1, 0⟩ probe]).ViewsAgree := by
  intro hagree
  have hstored := hagree.stored ⟨1, 0⟩ probe.componentType rfl
  exact absurd (hstored.mpr rfl) (by decide)

end Cougr.Ecs.World
