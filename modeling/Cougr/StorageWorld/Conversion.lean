import Cougr.StorageWorld.Lemmas
import Cougr.SimpleWorld.Queries

namespace Cougr

namespace StorageWorld

open KeyedList

section ToSimpleWorld

-- A listed component that is loaded goes to the table map.
def copyComponent (self : StorageWorld) (entityId : EntityId) (components : Map (EntityId × Symbol) Bytes)
    (componentType : Symbol) : Map (EntityId × Symbol) Bytes :=
  match self.getComponent entityId componentType with
  | some data => components.set (entityId, componentType) data
  | none => components

def copyEntity (self : StorageWorld) (world : SimpleWorld) (le : LoadedEntity) : SimpleWorld :=
  { world with
    components := le.componentTypes.foldl (self.copyComponent le.entityId) world.components
    entityComponents := world.entityComponents.set le.entityId le.componentTypes }

def toSimpleWorld (self : StorageWorld) : SimpleWorld :=
  let world := { SimpleWorld.new with
    nextEntityId := self.metadata.nextEntityId
    version := self.metadata.version }
  let world := self.loadedEntities.foldl self.copyEntity world
  { world with version := self.metadata.version }

variable (self : StorageWorld)

-- Of several loaded entities with one id the last gives the list.
def shownList (entityId : EntityId) : Option (List Symbol) :=
  (lookup LoadedEntity.entityId entityId self.loadedEntities.reverse).map LoadedEntity.componentTypes

def shownTypes (entityId : EntityId) : List Symbol := (self.shownList entityId).getD []

theorem get_foldl_copyComponent (entityId : EntityId) (types : List Symbol)
    (components : Map (EntityId × Symbol) Bytes) (key : EntityId × Symbol) :
    (types.foldl (self.copyComponent entityId) components).get key =
      if key.1 = entityId ∧ key.2 ∈ types then (self.getComponent entityId key.2).or (components.get key)
      else components.get key := by
  induction types generalizing components with
  | nil => simp
  | cons first rest ih =>
      have hfirst : (self.copyComponent entityId components first).get key =
          if key = (entityId, first) then (self.getComponent entityId first).or (components.get key)
          else components.get key := by
        unfold copyComponent
        cases self.getComponent entityId first <;> simp [Map.get_set]
      rw [List.foldl_cons, ih, hfirst]
      by_cases hkey : key = (entityId, first)
      · subst hkey
        cases self.getComponent entityId first <;> simp
      · have hne : key.1 = entityId → key.2 ≠ first := fun hid htype => hkey (Prod.ext hid htype)
        by_cases hid : key.1 = entityId
        · simp [hkey, hid, hne hid]
        · simp [hkey, hid]

-- What the loop over the loaded entities does to each field.
theorem foldl_copyEntity_frame (les : List LoadedEntity) (world : SimpleWorld) :
    (les.foldl self.copyEntity world).nextEntityId = world.nextEntityId ∧
      (les.foldl self.copyEntity world).sparseComponents = world.sparseComponents := by
  induction les generalizing world with
  | nil => exact ⟨rfl, rfl⟩
  | cons le les ih => exact ih (self.copyEntity world le)

theorem get_entityComponents_foldl_copyEntity (les : List LoadedEntity) (world : SimpleWorld) (e : EntityId) :
    (les.foldl self.copyEntity world).entityComponents.get e =
      ((lookup LoadedEntity.entityId e les.reverse).map LoadedEntity.componentTypes).or
        (world.entityComponents.get e) := by
  induction les generalizing world with
  | nil => simp
  | cons le les ih =>
      rw [List.foldl_cons, ih, List.reverse_cons, lookup_append, Option.map_or, Option.or_assoc, lookup_cons,
        lookup_nil, copyEntity, Map.get_set]
      by_cases he : e = le.entityId
      · simp [he]
      · simp [he, Ne.symm he]

theorem get_components_foldl_copyEntity (les : List LoadedEntity) (world : SimpleWorld) (e : EntityId)
    (t : Symbol) :
    (les.foldl self.copyEntity world).components.get (e, t) =
      if ∃ le ∈ les, le.entityId = e ∧ t ∈ le.componentTypes then
        (self.getComponent e t).or (world.components.get (e, t))
      else world.components.get (e, t) := by
  induction les generalizing world with
  | nil => simp
  | cons le les ih =>
      rw [List.foldl_cons, ih, copyEntity, get_foldl_copyComponent]
      by_cases hrest : ∃ le ∈ les, le.entityId = e ∧ t ∈ le.componentTypes
      · have hany : ∃ other ∈ le :: les, other.entityId = e ∧ t ∈ other.componentTypes := by
          obtain ⟨other, hmem, hother⟩ := hrest
          exact ⟨other, List.mem_cons_of_mem _ hmem, hother⟩
        rw [if_pos hrest, if_pos hany]
        by_cases he : e = le.entityId
        · subst he
          cases self.getComponent le.entityId t <;> simp
        · simp [he]
      · rw [if_neg hrest]
        by_cases hfirst : e = le.entityId ∧ t ∈ le.componentTypes
        · have hany : ∃ other ∈ le :: les, other.entityId = e ∧ t ∈ other.componentTypes :=
            ⟨le, List.mem_cons_self, hfirst.1.symm, hfirst.2⟩
          rw [if_pos hfirst, if_pos hany, hfirst.1]
        · have hnone : ¬∃ other ∈ le :: les, other.entityId = e ∧ t ∈ other.componentTypes := by
            rintro ⟨other, hmem, hid, ht⟩
            rcases List.mem_cons.mp hmem with rfl | hmem
            · exact hfirst ⟨hid.symm, ht⟩
            · exact hrest ⟨other, hmem, hid, ht⟩
          rw [if_neg hfirst, if_neg hnone]

theorem get_entityComponents_toSimpleWorld (e : EntityId) :
    self.toSimpleWorld.entityComponents.get e = self.shownList e := by
  have h := self.get_entityComponents_foldl_copyEntity self.loadedEntities
    { SimpleWorld.new with nextEntityId := self.metadata.nextEntityId, version := self.metadata.version } e
  simpa [toSimpleWorld, shownList, SimpleWorld.new] using h

theorem types_toSimpleWorld (e : EntityId) : self.toSimpleWorld.types e = self.shownTypes e := by
  rw [SimpleWorld.types, get_entityComponents_toSimpleWorld, shownTypes]

theorem getComponent_toSimpleWorld (e : EntityId) (t : Symbol) :
    self.toSimpleWorld.getComponent e t =
      if ∃ le ∈ self.loadedEntities, le.entityId = e ∧ t ∈ le.componentTypes then self.getComponent e t
      else none := by
  have h := self.get_components_foldl_copyEntity self.loadedEntities
    { SimpleWorld.new with nextEntityId := self.metadata.nextEntityId, version := self.metadata.version } e t
  have hsparse := (self.foldl_copyEntity_frame self.loadedEntities
    { SimpleWorld.new with nextEntityId := self.metadata.nextEntityId, version := self.metadata.version }).2
  simp only [SimpleWorld.getComponent, toSimpleWorld, h, hsparse]
  split_ifs <;> simp [SimpleWorld.new]

end ToSimpleWorld

section FromSimpleWorld

-- A listed component that the world has data for is loaded and marked.
def takeComponent (world : SimpleWorld) (entityId : EntityId) (taken : StorageWorld) (componentType : Symbol) :
    StorageWorld :=
  match world.getComponent entityId componentType with
  | some data =>
    { taken with
      loadedComponents := taken.loadedComponents ++ [{ entityId, componentType, data }]
      dirty := taken.dirty.markComponentDirty entityId componentType }
  | none => taken

def countEntity (taken : StorageWorld) (entityId : EntityId) : StorageWorld :=
  { taken with metadata := { taken.metadata with
    entityIds := taken.metadata.entityIds ++ [entityId]
    entityCount := taken.metadata.entityCount + 1 } }

def takeEntity (world : SimpleWorld) (taken : StorageWorld) (entityId : EntityId) : StorageWorld :=
  let taken := taken.countEntity entityId
  match world.entityComponents.get entityId with
  | some componentTypes =>
    let taken := componentTypes.foldl (takeComponent world entityId) taken
    { taken with
      loadedEntities := taken.loadedEntities ++ [{ entityId, componentTypes }]
      dirty := (taken.dirty.markEntityDirty entityId).markNewEntity entityId }
  | none => taken

-- Before the loop only the two counters are there.
def noneTaken (world : SimpleWorld) : StorageWorld where
  metadata :=
    { nextEntityId := world.nextEntityId, version := world.version, entityCount := 0, entityIds := [] }
  loadedEntities := []
  loadedComponents := []
  dirty := .new

def fromSimpleWorld (world : SimpleWorld) : StorageWorld :=
  let taken := world.entityComponents.keys.foldl (takeEntity world) (noneTaken world)
  { taken with dirty := taken.dirty.markMetaDirty }

variable (world : SimpleWorld)

-- One turn of the loop over the types leaves the rest of the world alone.
theorem foldl_takeComponent_frame (entityId : EntityId) (types : List Symbol) (taken : StorageWorld) :
    let after := types.foldl (takeComponent world entityId) taken
    after.metadata = taken.metadata ∧ after.loadedEntities = taken.loadedEntities ∧
      after.dirty.dirtyEntities = taken.dirty.dirtyEntities ∧ after.dirty.despawned = taken.dirty.despawned := by
  induction types generalizing taken with
  | nil => exact ⟨rfl, rfl, rfl, rfl⟩
  | cons first rest ih =>
      have hrest := ih (takeComponent world entityId taken first)
      have hfirst : (takeComponent world entityId taken first).metadata = taken.metadata ∧
          (takeComponent world entityId taken first).loadedEntities = taken.loadedEntities ∧
          (takeComponent world entityId taken first).dirty.dirtyEntities = taken.dirty.dirtyEntities ∧
          (takeComponent world entityId taken first).dirty.despawned = taken.dirty.despawned := by
        unfold takeComponent
        split <;> exact ⟨rfl, rfl, rfl, rfl⟩
      simp only [hfirst] at hrest
      exact hrest

theorem getComponent_foldl_takeComponent (entityId : EntityId) (types : List Symbol) (taken : StorageWorld)
    (e : EntityId) (t : Symbol) :
    (types.foldl (takeComponent world entityId) taken).getComponent e t =
      (taken.getComponent e t).or (if e = entityId ∧ t ∈ types then world.getComponent e t else none) := by
  induction types generalizing taken with
  | nil => simp
  | cons first rest ih =>
      have hfirst : (takeComponent world entityId taken first).getComponent e t =
          (taken.getComponent e t).or
            (if e = entityId ∧ t = first then world.getComponent e t else none) := by
        unfold takeComponent
        cases hdata : world.getComponent entityId first with
        | none =>
            by_cases hkey : e = entityId ∧ t = first
            · simp [hkey, hdata]
            · simp [hkey]
        | some data =>
            have hhit : LoadedComponent.key ⟨entityId, first, data⟩ = (e, t) ↔ e = entityId ∧ t = first := by
              rw [LoadedComponent.key, Prod.mk.injEq, eq_comm, @eq_comm _ first]
            simp only [getComponent, lookup_append, lookup_cons, lookup_nil, Option.map_or, hhit]
            by_cases hkey : e = entityId ∧ t = first
            · simp [hkey, hdata]
            · simp [hkey]
      rw [List.foldl_cons, ih, hfirst, Option.or_assoc]
      by_cases he : e = entityId
      · by_cases ht : t = first
        · simp only [he, ht, List.mem_cons, true_or, and_self, if_true, true_and]
          cases world.getComponent entityId first <;> simp
        · simp [he, ht]
      · simp [he]

theorem mem_dirtyComponents_foldl_takeComponent (entityId : EntityId) (types : List Symbol)
    (taken : StorageWorld) (entry : EntityId × Symbol) :
    entry ∈ (types.foldl (takeComponent world entityId) taken).dirty.dirtyComponents ↔
      entry ∈ taken.dirty.dirtyComponents ∨
        entry.1 = entityId ∧ entry.2 ∈ types ∧ (world.getComponent entry.1 entry.2).isSome := by
  induction types generalizing taken with
  | nil => simp
  | cons first rest ih =>
      have hfirst : entry ∈ (takeComponent world entityId taken first).dirty.dirtyComponents ↔
          entry ∈ taken.dirty.dirtyComponents ∨
            entry = (entityId, first) ∧ (world.getComponent entityId first).isSome := by
        unfold takeComponent
        cases hdata : world.getComponent entityId first with
        | none => simp
        | some data =>
            simp only [Option.isSome_some, and_true]
            exact DirtyTracker.mem_push ..
      rw [List.foldl_cons, ih, hfirst]
      by_cases hkey : entry = (entityId, first)
      · subst hkey
        simp only [List.mem_cons, true_or, true_and]
        tauto
      · have hne : entry.1 = entityId → entry.2 ≠ first := fun hid htype => hkey (Prod.ext hid htype)
        by_cases hid : entry.1 = entityId
        · simp [hkey, hid, hne hid]
        · simp [hkey, hid]

section TakeEntity

variable {world} (taken : StorageWorld) {entityId : EntityId} {types : List Symbol}
  (htypes : world.entityComponents.get entityId = some types)

include htypes

theorem metadata_takeEntity : (takeEntity world taken entityId).metadata =
    { taken.metadata with
      entityIds := taken.metadata.entityIds ++ [entityId]
      entityCount := taken.metadata.entityCount + 1 } := by
  simp only [takeEntity, htypes]
  exact (foldl_takeComponent_frame world entityId types (taken.countEntity entityId)).1

theorem typesOf_takeEntity (e : EntityId) : (takeEntity world taken entityId).typesOf e =
    (taken.typesOf e).or (if e = entityId then some types else none) := by
  have hloaded := (foldl_takeComponent_frame world entityId types (taken.countEntity entityId)).2.1
  simp only [takeEntity, htypes, typesOf, hloaded, lookup_append, Option.map_or, lookup_cons, lookup_nil]
  by_cases he : e = entityId
  · simp [he, countEntity]
  · simp [he, Ne.symm he, countEntity]

theorem getComponent_takeEntity (e : EntityId) (t : Symbol) : (takeEntity world taken entityId).getComponent e t =
    (taken.getComponent e t).or (if e = entityId ∧ t ∈ types then world.getComponent e t else none) := by
  simp only [takeEntity, htypes]
  exact getComponent_foldl_takeComponent world entityId types (taken.countEntity entityId) e t

theorem mem_dirtyEntities_takeEntity (e : EntityId) :
    e ∈ (takeEntity world taken entityId).dirty.dirtyEntities ↔ e ∈ taken.dirty.dirtyEntities ∨ e = entityId := by
  have hdirty := (foldl_takeComponent_frame world entityId types (taken.countEntity entityId)).2.2.1
  simp only [takeEntity, htypes]
  refine (DirtyTracker.mem_push ..).trans ?_
  rw [hdirty]
  rfl

theorem mem_dirtyComponents_takeEntity (e : EntityId) (t : Symbol) :
    (e, t) ∈ (takeEntity world taken entityId).dirty.dirtyComponents ↔
      (e, t) ∈ taken.dirty.dirtyComponents ∨ e = entityId ∧ t ∈ types ∧ (world.getComponent e t).isSome := by
  simp only [takeEntity, htypes]
  exact mem_dirtyComponents_foldl_takeComponent world entityId types (taken.countEntity entityId) (e, t)

theorem despawned_takeEntity :
    (takeEntity world taken entityId).dirty.despawned = taken.dirty.despawned := by
  simp only [takeEntity, htypes]
  exact (foldl_takeComponent_frame world entityId types (taken.countEntity entityId)).2.2.2

end TakeEntity

-- What the loop over the listed entities has taken from the world so far.
structure Taken (ids : List EntityId) (taken : StorageWorld) : Prop where
  metadata : taken.metadata = ⟨world.nextEntityId, world.version, ids.length, ids⟩
  typesOf : ∀ e, taken.typesOf e = if e ∈ ids then world.entityComponents.get e else none
  getComponent : ∀ e t, taken.getComponent e t =
    if e ∈ ids ∧ t ∈ world.types e then world.getComponent e t else none
  dirtyEntities : ∀ e, e ∈ taken.dirty.dirtyEntities ↔ e ∈ ids ∧ (world.entityComponents.get e).isSome
  dirtyComponents : ∀ e t, (e, t) ∈ taken.dirty.dirtyComponents ↔
    e ∈ ids ∧ t ∈ world.types e ∧ (world.getComponent e t).isSome
  despawned : taken.dirty.despawned = []

variable {world}

theorem Taken.takeEntity {ids : List EntityId} {taken : StorageWorld} (h : Taken world ids taken)
    {entityId : EntityId} {types : List Symbol} (htypes : world.entityComponents.get entityId = some types) :
    Taken world (ids ++ [entityId]) (takeEntity world taken entityId) := by
  have hlist : world.types entityId = types := by rw [SimpleWorld.types, htypes, Option.getD_some]
  constructor
  · rw [metadata_takeEntity taken htypes, h.metadata, List.length_append]
    rfl
  · intro e
    rw [typesOf_takeEntity taken htypes, h.typesOf]
    by_cases he : e = entityId
    · subst he
      by_cases hmem : e ∈ ids <;> simp [hmem, htypes]
    · simp [he]
  · intro e t
    rw [getComponent_takeEntity taken htypes, h.getComponent]
    by_cases he : e = entityId
    · subst he
      rw [hlist]
      by_cases ht : t ∈ types
      · by_cases hmem : e ∈ ids <;> simp [hmem, ht]
      · simp [ht]
    · simp [he]
  · intro e
    rw [mem_dirtyEntities_takeEntity taken htypes, h.dirtyEntities, List.mem_append, List.mem_singleton]
    by_cases he : e = entityId
    · simp [he, htypes]
    · simp [he]
  · intro e t
    rw [mem_dirtyComponents_takeEntity taken htypes, h.dirtyComponents, List.mem_append, List.mem_singleton]
    by_cases he : e = entityId
    · rw [he, hlist]
      tauto
    · simp [he]
  · rw [despawned_takeEntity taken htypes, h.despawned]

theorem taken_fromSimpleWorld (world : SimpleWorld) :
    Taken world world.entityComponents.keys (fromSimpleWorld world) := by
  have hrun : ∀ ids, (∀ e ∈ ids, (world.entityComponents.get e).isSome) →
      Taken world ids (ids.foldl (StorageWorld.takeEntity world) (noneTaken world)) := by
    intro ids hids
    induction ids using List.reverseRecOn with
    | nil =>
        constructor <;> simp [noneTaken, StorageWorld.typesOf, StorageWorld.getComponent, DirtyTracker.new]
    | append_singleton ids entityId ih =>
        obtain ⟨types, htypes⟩ := Option.isSome_iff_exists.mp (hids entityId (by simp))
        rw [List.foldl_append, List.foldl_cons, List.foldl_nil]
        exact (ih fun e he => hids e (List.mem_append_left _ he)).takeEntity htypes
  have htaken := hrun world.entityComponents.keys fun e he => (Map.mem_keys _ e).mp he
  exact ⟨htaken.metadata, htaken.typesOf, htaken.getComponent, htaken.dirtyEntities, htaken.dirtyComponents,
    htaken.despawned⟩

theorem metaDirty_fromSimpleWorld (world : SimpleWorld) : (fromSimpleWorld world).dirty.metaDirty = true := rfl

-- The keys hold every entity with a list, so they drop out of what has been taken.
theorem typesOf_fromSimpleWorld (world : SimpleWorld) (e : EntityId) :
    (fromSimpleWorld world).typesOf e = world.entityComponents.get e := by
  rw [(taken_fromSimpleWorld world).typesOf]
  simp only [Map.mem_keys]
  cases world.entityComponents.get e <;> rfl

theorem getComponent_fromSimpleWorld (world : SimpleWorld) (e : EntityId) (t : Symbol) :
    (fromSimpleWorld world).getComponent e t = if t ∈ world.types e then world.getComponent e t else none := by
  rw [(taken_fromSimpleWorld world).getComponent]
  by_cases ht : t ∈ world.types e
  · have hkey := SimpleWorld.mem_entityComponents_keys ht
    simp [ht, hkey]
  · simp [ht]

end FromSimpleWorld

end StorageWorld

end Cougr
