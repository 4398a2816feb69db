import Cougr.Ecs.World.Views

namespace Cougr.Ecs

structure Query where
  requiredComponents : List Symbol
  excludedComponents : List Symbol

namespace Query

def new : Query := ⟨[], []⟩

def withComponent (self : Query) (componentType : Symbol) : Query :=
  { self with requiredComponents := self.requiredComponents ++ [componentType] }

def withoutComponent (self : Query) (componentType : Symbol) : Query :=
  { self with excludedComponents := self.excludedComponents ++ [componentType] }

def execute (self : Query) (world : World) : List EntityId :=
  (world.entities.iterEntities.filter fun entity =>
    let hasRequired := self.requiredComponents.all entity.hasComponent
    let hasExcluded := self.excludedComponents.any entity.hasComponent
    hasRequired && !hasExcluded).map Entity.id

def isEmpty (self : Query) : Bool := self.requiredComponents.isEmpty && self.excludedComponents.isEmpty

end Query

structure QueryState where
  query : Query
  lastResults : List EntityId
  lastWorldVersion : Nat

namespace QueryState

def new (query : Query) : QueryState := ⟨query, [], 0⟩

-- The version is not looked at and not set: this world has none.
def execute (self : QueryState) (world : World) : QueryState :=
  { self with lastResults := self.query.execute world }

def results (self : QueryState) : List EntityId := self.lastResults

def cachedVersion (self : QueryState) : Nat := self.lastWorldVersion

def needsUpdate (self : QueryState) (worldVersion : Nat) : Bool := self.lastWorldVersion != worldVersion

end QueryState

structure QueryBuilder where
  query : Query

namespace QueryBuilder

def new : QueryBuilder := ⟨Query.new⟩

def withComponent (self : QueryBuilder) (componentType : Symbol) : QueryBuilder :=
  ⟨self.query.withComponent componentType⟩

def withoutComponent (self : QueryBuilder) (componentType : Symbol) : QueryBuilder :=
  ⟨self.query.withoutComponent componentType⟩

def withComponents (self : QueryBuilder) (componentTypes : List Symbol) : QueryBuilder :=
  ⟨componentTypes.foldl Query.withComponent self.query⟩

def withoutComponents (self : QueryBuilder) (componentTypes : List Symbol) : QueryBuilder :=
  ⟨componentTypes.foldl Query.withoutComponent self.query⟩

def build (self : QueryBuilder) : Query := self.query

def buildState (self : QueryBuilder) : QueryState := QueryState.new self.query

end QueryBuilder

abbrev QueryFilter := World → EntityId → Bool

def WithComponent (componentType : Symbol) : QueryFilter := fun world entityId =>
  world.hasComponent entityId componentType

def WithoutComponent (componentType : Symbol) : QueryFilter := fun world entityId =>
  !world.hasComponent entityId componentType

def AllFilters (filters : List Symbol) : QueryFilter := fun world entityId =>
  match world.entities.getEntity entityId with
  | some entity => filters.all entity.hasComponent
  | none => false

def AnyFilter (filters : List Symbol) : QueryFilter := fun world entityId =>
  match world.entities.getEntity entityId with
  | some entity => filters.any entity.hasComponent
  | none => false

def queryWithFilter (world : World) (filter : QueryFilter) : List EntityId :=
  (world.entities.iterEntities.filter fun entity => filter world entity.id).map Entity.id

-- The query of `system.rs`, which only requires.
structure SystemQuery where
  componentTypes : List Symbol

namespace SystemQuery

def new (componentTypes : List Symbol) : SystemQuery := ⟨componentTypes⟩

def withComponent (self : SystemQuery) (componentType : Symbol) : SystemQuery :=
  ⟨self.componentTypes ++ [componentType]⟩

def execute (self : SystemQuery) (world : World) : List EntityId :=
  (world.entities.iterEntities.filter fun entity => self.componentTypes.all entity.hasComponent).map Entity.id

end SystemQuery

section Built

inductive BuilderCall where
  | withComponent (componentType : Symbol)
  | withoutComponent (componentType : Symbol)
  | withComponents (componentTypes : List Symbol)
  | withoutComponents (componentTypes : List Symbol)

def QueryBuilder.call (self : QueryBuilder) : BuilderCall → QueryBuilder
  | .withComponent componentType => self.withComponent componentType
  | .withoutComponent componentType => self.withoutComponent componentType
  | .withComponents componentTypes => self.withComponents componentTypes
  | .withoutComponents componentTypes => self.withoutComponents componentTypes

def BuilderCall.required : BuilderCall → List Symbol
  | .withComponent componentType => [componentType]
  | .withComponents componentTypes => componentTypes
  | _ => []

def BuilderCall.excluded : BuilderCall → List Symbol
  | .withoutComponent componentType => [componentType]
  | .withoutComponents componentTypes => componentTypes
  | _ => []

def built (calls : List BuilderCall) : QueryBuilder := Transition.run QueryBuilder.call QueryBuilder.new calls

theorem foldl_withComponent (componentTypes : List Symbol) (query : Query) :
    componentTypes.foldl Query.withComponent query =
      { query with requiredComponents := query.requiredComponents ++ componentTypes } := by
  induction componentTypes generalizing query with
  | nil => rw [List.foldl_nil, List.append_nil]
  | cons t rest ih =>
      rw [List.foldl_cons, ih, List.append_cons]
      rfl

theorem foldl_withoutComponent (componentTypes : List Symbol) (query : Query) :
    componentTypes.foldl Query.withoutComponent query =
      { query with excludedComponents := query.excludedComponents ++ componentTypes } := by
  induction componentTypes generalizing query with
  | nil => rw [List.foldl_nil, List.append_nil]
  | cons t rest ih =>
      rw [List.foldl_cons, ih, List.append_cons]
      rfl

theorem call_query (builder : QueryBuilder) (call : BuilderCall) : (builder.call call).query =
    ⟨builder.query.requiredComponents ++ call.required, builder.query.excludedComponents ++ call.excluded⟩ := by
  cases call <;> simp [QueryBuilder.call, QueryBuilder.withComponent, Query.withComponent,
    QueryBuilder.withoutComponent, Query.withoutComponent, QueryBuilder.withComponents, foldl_withComponent,
    QueryBuilder.withoutComponents, foldl_withoutComponent, BuilderCall.required, BuilderCall.excluded]

theorem built_query (calls : List BuilderCall) : (built calls).build =
    ⟨calls.flatMap BuilderCall.required, calls.flatMap BuilderCall.excluded⟩ := by
  induction calls using List.reverseRecOn with
  | nil => rfl
  | append_singleton calls call ih =>
      rw [QueryBuilder.build, built, Transition.run_concat, call_query, ← built, ← QueryBuilder.build, ih]
      simp only [List.flatMap_append, List.flatMap_singleton]

end Built

section Filters

variable {world : World}

-- With one entity for an id, the entity that a filter looks up is the one that is being listed.
theorem getEntity_id (hids : (world.entities.entities.map Entity.id).Nodup) {entity : Entity}
    (hentity : entity ∈ world.entities.entities) : world.entities.getEntity entity.id = some entity :=
  (KeyedList.lookup_eq_some_iff hids).mpr ⟨hentity, rfl⟩

theorem queryWithFilter_eq {filter : QueryFilter} {listed : Entity → Bool}
    (hlisted : ∀ entity ∈ world.entities.entities, filter world entity.id = listed entity) :
    queryWithFilter world filter = (world.entities.entities.filter listed).map Entity.id := by
  rw [queryWithFilter, EntityManager.iterEntities, List.filter_congr hlisted]

variable (hids : (world.entities.entities.map Entity.id).Nodup)

include hids

theorem allFilters_id (ts : List Symbol) : ∀ entity ∈ world.entities.entities,
    AllFilters ts world entity.id = ts.all entity.hasComponent := by
  intro entity hentity
  rw [AllFilters, getEntity_id hids hentity]

theorem anyFilter_id (ts : List Symbol) : ∀ entity ∈ world.entities.entities,
    AnyFilter ts world entity.id = ts.any entity.hasComponent := by
  intro entity hentity
  rw [AnyFilter, getEntity_id hids hentity]

theorem hasComponent_id (t : Symbol) : ∀ entity ∈ world.entities.entities,
    world.hasComponent entity.id t = entity.hasComponent t := by
  intro entity hentity
  rw [World.hasComponent, getEntity_id hids hentity]

-- Which entities a query takes, in the order in which they were spawned.
theorem mem_execute_iff (query : Query) (e : EntityId) : e ∈ query.execute world ↔ world.entityExists e ∧
    (∀ t ∈ query.requiredComponents, world.hasComponent e t) ∧
    ∀ t ∈ query.excludedComponents, ¬world.hasComponent e t := by
  simp only [Query.execute, EntityManager.iterEntities, List.mem_map, List.mem_filter, Bool.and_eq_true,
    List.all_eq_true, Bool.not_eq_true', List.any_eq_false, World.entityExists, EntityManager.entityExists_iff]
  constructor
  · rintro ⟨entity, ⟨hentity, hrequired, hexcluded⟩, rfl⟩
    refine ⟨⟨entity, hentity, rfl⟩, fun t ht => ?_, fun t ht => ?_⟩
    · rw [hasComponent_id hids t entity hentity]
      exact hrequired t ht
    · rw [hasComponent_id hids t entity hentity]
      exact hexcluded t ht
  · rintro ⟨⟨entity, hentity, rfl⟩, hrequired, hexcluded⟩
    refine ⟨entity, ⟨hentity, fun t ht => ?_, fun t ht => ?_⟩, rfl⟩
    · rw [← hasComponent_id hids t entity hentity]
      exact hrequired t ht
    · rw [← hasComponent_id hids t entity hentity]
      exact hexcluded t ht

theorem execute_eq_filter (query : Query) : query.execute world =
    (queryWithFilter world (AllFilters query.requiredComponents)).filter fun e =>
      !AnyFilter query.excludedComponents world e := by
  rw [queryWithFilter_eq (allFilters_id hids _), List.filter_map, List.filter_filter, Query.execute,
    EntityManager.iterEntities]
  congr 1
  refine List.filter_congr fun entity hentity => ?_
  rw [Function.comp_apply, anyFilter_id hids _ entity hentity, Bool.and_comm]

omit hids in
-- Repetitions and the order of the types do not matter.
theorem execute_congr {first second : Query}
    (hrequired : ∀ t, t ∈ first.requiredComponents ↔ t ∈ second.requiredComponents)
    (hexcluded : ∀ t, t ∈ first.excludedComponents ↔ t ∈ second.excludedComponents) :
    first.execute world = second.execute world := by
  rw [Query.execute, Query.execute]
  congr 1
  refine List.filter_congr fun entity _ => ?_
  rw [Bool.eq_iff_iff]
  simp only [Bool.and_eq_true, List.all_eq_true, Bool.not_eq_true', List.any_eq_false, hrequired, hexcluded]

end Filters

-- The ways to ask a world agree on what a builder was asked for.
structure QueriesAgree (calls : List BuilderCall) (world : World) : Prop where
  taken : ∀ e, e ∈ (built calls).build.execute world ↔ world.entityExists e ∧
    (∀ t ∈ calls.flatMap BuilderCall.required, world.hasComponent e t) ∧
    ∀ t ∈ calls.flatMap BuilderCall.excluded, ¬world.hasComponent e t
  once : ((built calls).build.execute world).Nodup
  filtered : (built calls).build.execute world =
    (queryWithFilter world (AllFilters (calls.flatMap BuilderCall.required))).filter fun e =>
      !AnyFilter (calls.flatMap BuilderCall.excluded) world e
  plain : ∀ ts, queryWithFilter world (AllFilters ts) = world.queryEntities ts ∧
    (SystemQuery.new ts).execute world = world.queryEntities ts
  single : ∀ t, queryWithFilter world (WithComponent t) = world.queryEntities [t] ∧
    queryWithFilter world (WithoutComponent t) = (Query.new.withoutComponent t).execute world
  order : ∀ others, (∀ t, t ∈ calls.flatMap BuilderCall.required ↔ t ∈ others.flatMap BuilderCall.required) →
    (∀ t, t ∈ calls.flatMap BuilderCall.excluded ↔ t ∈ others.flatMap BuilderCall.excluded) →
    (built calls).build.execute world = (built others).build.execute world

theorem queriesAgree (calls : List BuilderCall) (world : World)
    (hids : (world.entities.entities.map Entity.id).Nodup) : QueriesAgree calls world where
  taken e := by
    rw [mem_execute_iff hids, built_query]
  once := by
    rw [Query.execute]
    exact hids.sublist (List.filter_sublist.map Entity.id)
  filtered := by
    rw [execute_eq_filter hids, built_query]
  plain ts := ⟨queryWithFilter_eq (allFilters_id hids ts), rfl⟩
  single t := by
    constructor
    · refine queryWithFilter_eq fun entity hentity => ?_
      rw [WithComponent, hasComponent_id hids t entity hentity, List.all_cons, List.all_nil, Bool.and_true]
    · refine queryWithFilter_eq fun entity hentity => ?_
      rw [WithoutComponent, hasComponent_id hids t entity hentity]
      simp [Query.withoutComponent, Query.new]
  order others hrequired hexcluded := by
    apply execute_congr
    · rw [built_query, built_query]
      exact hrequired
    · rw [built_query, built_query]
      exact hexcluded

-- The first of two entities is listed with a type.
def markedWorld : World :=
  { World.new with entities := ⟨3, [⟨⟨1, 0⟩, [World.probe.componentType]⟩, Entity.new ⟨2, 0⟩], []⟩ }

theorem markedWorld_queriesAgree :
    QueriesAgree [.withoutComponents [], .withComponent World.probe.componentType] markedWorld :=
  queriesAgree [.withoutComponents [], .withComponent World.probe.componentType] markedWorld (by decide)

-- A query state holds what it found last, on whichever world, and never notes a version.
theorem queryState_after (calls : List BuilderCall) (worlds : List World) :
    let state := Transition.run QueryState.execute (built calls).buildState worlds
    state.query = (built calls).build ∧ state.cachedVersion = 0 ∧
      state.results = (worlds.getLast?.map (built calls).build.execute).getD [] := by
  induction worlds using List.reverseRecOn with
  | nil => exact ⟨rfl, rfl, rfl⟩
  | append_singleton past world ih =>
      obtain ⟨hquery, hversion, -⟩ := ih
      rw [Transition.run_concat]
      refine ⟨hquery, hversion, ?_⟩
      rw [List.getLast?_concat, QueryState.results, QueryState.execute, hquery]
      rfl

end Cougr.Ecs
