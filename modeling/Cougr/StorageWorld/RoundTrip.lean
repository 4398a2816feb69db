import Cougr.StorageWorld.WriteBack
import Cougr.SimpleWorld.Entries

namespace Cougr

namespace StorageWorld

open KeyedList
open SimpleWorld (Indexed ReadsAlike)

section Reload

variable (env : Storage)

theorem loaded_concat (ids : List EntityId) (e : EntityId) :
    loaded env (ids ++ [e]) = ((loaded env ids).loadEntity env e).2 := by
  rw [loaded, List.map_append, List.map_singleton, Transition.run_concat]
  rfl

theorem metadata_loaded (ids : List EntityId) : (loaded env ids).metadata = storedMetadata env := by
  induction ids using List.reverseRecOn with
  | nil => rfl
  | append_singleton ids e ih => rw [loaded_concat, metadata_loadEntity, ih]

-- A world into which entities have only been loaded lists them as storage does.
theorem mem_loadedEntities_loaded {ids : List EntityId} {le : LoadedEntity} :
    le ∈ (loaded env ids).loadedEntities ↔
      le.entityId ∈ ids ∧ storedTypes env le.entityId = some le.componentTypes := by
  induction ids using List.reverseRecOn generalizing le with
  | nil => simp [loaded, loadMetadata]
  | append_singleton ids e ih =>
      rw [loaded_concat, mem_loadedEntities_loadEntity, ih, List.mem_append, List.mem_singleton]
      constructor
      · rintro (⟨hid, hstored⟩ | ⟨_, rfl, hstored⟩)
        · exact ⟨Or.inl hid, hstored⟩
        · exact ⟨Or.inr rfl, hstored⟩
      · rintro ⟨hid | rfl, hstored⟩
        · exact Or.inl ⟨hid, hstored⟩
        · by_cases hloaded : (loaded env ids).isLoaded le.entityId
          · obtain ⟨other, hother, hid⟩ := List.any_eq_true.mp hloaded
            have hsame : other.entityId = le.entityId := by simpa using hid
            exact Or.inl ⟨hsame ▸ (ih.mp hother).1, hstored⟩
          · exact Or.inr ⟨hloaded, rfl, hstored⟩

theorem shownList_loaded (ids : List EntityId) (e : EntityId) :
    (loaded env ids).shownList e = if e ∈ ids then storedTypes env e else none := by
  unfold shownList
  cases hlookup : lookup LoadedEntity.entityId e (loaded env ids).loadedEntities.reverse with
  | none =>
      rw [lookup_eq_none_iff] at hlookup
      split_ifs with he
      · cases hstored : storedTypes env e with
        | none => rfl
        | some types =>
            have hmem : ⟨e, types⟩ ∈ (loaded env ids).loadedEntities :=
              (mem_loadedEntities_loaded env).mpr ⟨he, hstored⟩
            exact absurd rfl (hlookup ⟨e, types⟩ (List.mem_reverse.mpr hmem))
      · rfl
  | some le =>
      have hid : le.entityId = e := by simpa using List.find?_some hlookup
      obtain ⟨he, hstored⟩ :=
        (mem_loadedEntities_loaded env).mp (List.mem_reverse.mp (List.mem_of_find?_eq_some hlookup))
      rw [hid] at he hstored
      rw [if_pos he, hstored]
      rfl

theorem getComponent_toSimpleWorld_loaded (ids : List EntityId) (e : EntityId) (t : Symbol) :
    (loaded env ids).toSimpleWorld.getComponent e t = if e ∈ ids then storedComponent env e t else none := by
  have htypes := types_toSimpleWorld (loaded env ids) e
  rw [shownTypes, shownList_loaded] at htypes
  by_cases ht : t ∈ (loaded env ids).toSimpleWorld.types e
  · rw [(mirrored_loaded env ids).getComponent_toSimpleWorld ht]
    rw [htypes] at ht
    split_ifs at ht ⊢ with he
    · cases hstored : storedTypes env e with
      | none => simp [hstored] at ht
      | some types =>
          rw [hstored, Option.getD_some] at ht
          rw [storedComponent, hstored, Option.bind_some, if_pos ht]
    · cases ht
  · -- no loaded entity lists the type
    rw [StorageWorld.getComponent_toSimpleWorld, if_neg]
    · rw [htypes] at ht
      split_ifs at ht ⊢ with he
      · cases hstored : storedTypes env e with
        | none => rw [storedComponent, hstored, Option.bind_none]
        | some types =>
            rw [hstored, Option.getD_some] at ht
            rw [storedComponent, hstored, Option.bind_some, if_neg ht]
      · rfl
    · rintro ⟨le, hle, rfl, hlists⟩
      obtain ⟨he, hstored⟩ := (mem_loadedEntities_loaded env).mp hle
      rw [htypes, if_pos he, hstored] at ht
      exact ht hlists

end Reload

section RoundTrip

-- What is in storage once the flat world has been migrated and flushed.
def migrated (env : Storage) (world : SimpleWorld) : Storage := ((fromSimpleWorld world).flush env).2

-- A later session that loads everything the metadata lists.
def reopened (env : Storage) : StorageWorld := loaded env (loadMetadata env).metadata.entityIds

variable (env : Storage) {world : SimpleWorld} {kind : Symbol → ComponentStorage}

theorem storedMetadata_migrated (world : SimpleWorld) : storedMetadata (migrated env world) =
    ⟨world.nextEntityId, world.version, world.entityComponents.keys.length, world.entityComponents.keys⟩ :=
  storedMetadata_flush_fromSimpleWorld env world

theorem mem_entityIds_migrated (world : SimpleWorld) (e : EntityId) :
    e ∈ (loadMetadata (migrated env world)).metadata.entityIds ↔ (world.entityComponents.get e).isSome := by
  rw [← storedMetadata, storedMetadata_migrated, Map.mem_keys]

-- Of the entities the metadata lists, nothing that was stored before shows through.
theorem storedComponent_migrated (h : Indexed kind world) {e : EntityId}
    (he : (world.entityComponents.get e).isSome) (t : Symbol) :
    storedComponent (migrated env world) e t = world.getComponent e t := by
  obtain ⟨types, htypes⟩ := Option.isSome_iff_exists.mp he
  have hlist : world.types e = types := by rw [SimpleWorld.types, htypes, Option.getD_some]
  have hstored := storedTypes_flush_fromSimpleWorld env world e
  rw [htypes, Option.some_or] at hstored
  have hthere := h.isSome_getComponent_iff e t
  rw [storedComponent, migrated, hstored, Option.bind_some, storedData_flush_fromSimpleWorld, hlist]
  rw [hlist] at hthere
  by_cases ht : t ∈ types
  · obtain ⟨data, hdata⟩ := Option.isSome_iff_exists.mp (hthere.mpr ht)
    rw [if_pos ht, if_pos ht, hdata, Option.some_or]
  · rw [if_neg ht]
    cases hdata : world.getComponent e t with
    | none => rfl
    | some data => exact absurd (hthere.mp (by rw [hdata]; rfl)) ht

theorem get_entityComponents_reopened (world : SimpleWorld) (e : EntityId) :
    (reopened (migrated env world)).toSimpleWorld.entityComponents.get e = world.entityComponents.get e := by
  rw [get_entityComponents_toSimpleWorld, reopened, shownList_loaded]
  simp only [mem_entityIds_migrated]
  rw [migrated, storedTypes_flush_fromSimpleWorld]
  cases world.entityComponents.get e <;> rfl

theorem types_reopened (world : SimpleWorld) (e : EntityId) :
    (reopened (migrated env world)).toSimpleWorld.types e = world.types e := by
  rw [SimpleWorld.types, get_entityComponents_reopened, SimpleWorld.types]

theorem getComponent_reopened (h : Indexed kind world) (e : EntityId) (t : Symbol) :
    (reopened (migrated env world)).toSimpleWorld.getComponent e t = world.getComponent e t := by
  rw [reopened, getComponent_toSimpleWorld_loaded]
  simp only [mem_entityIds_migrated]
  split_ifs with he
  · exact storedComponent_migrated env h he t
  · cases hdata : world.getComponent e t with
    | none => rfl
    | some data =>
        have ht := (h.isSome_getComponent_iff e t).mp (by rw [hdata]; rfl)
        exact absurd ((Map.mem_keys ..).mp (SimpleWorld.mem_entityComponents_keys ht)) he

-- The conversion fills the table map alone.
theorem sparseComponents_toSimpleWorld (self : StorageWorld) :
    self.toSimpleWorld.sparseComponents = Map.new :=
  (self.foldl_copyEntity_frame self.loadedEntities
    { SimpleWorld.new with nextEntityId := self.metadata.nextEntityId, version := self.metadata.version }).2

theorem nextEntityId_toSimpleWorld (self : StorageWorld) :
    self.toSimpleWorld.nextEntityId = self.metadata.nextEntityId :=
  (self.foldl_copyEntity_frame self.loadedEntities
    { SimpleWorld.new with nextEntityId := self.metadata.nextEntityId, version := self.metadata.version }).1

theorem indexed_reopened (h : Indexed kind world) :
    Indexed (fun _ => .Table) (reopened (migrated env world)).toSimpleWorld := by
  have hsparse := sparseComponents_toSimpleWorld (reopened (migrated env world))
  constructor
  · intro e t
    have hget := getComponent_reopened env h e t
    rw [SimpleWorld.getComponent, hsparse, Map.get_new, Option.or_none] at hget
    rw [hget, types_reopened, h.isSome_getComponent_iff]
    exact (and_iff_right rfl).symm
  · intro e t
    rw [hsparse, Map.get_new]
    constructor
    · intro hthere
      cases hthere
    · rintro ⟨hkind, _⟩
      cases hkind
  · intro e types htypes
    rw [get_entityComponents_reopened] at htypes
    exact h.lists e types htypes

theorem readsAlike_reopened (h : Indexed kind world) :
    ReadsAlike (reopened (migrated env world)).toSimpleWorld world := by
  have hmetadata : (reopened (migrated env world)).metadata = storedMetadata (migrated env world) :=
    metadata_loaded (migrated env world) _
  rw [storedMetadata_migrated] at hmetadata
  apply SimpleWorld.readsAlike (indexed_reopened env h) h (getComponent_reopened env h)
  · rw [nextEntityId_toSimpleWorld, hmetadata]
  · exact congrArg WorldMetadata.version hmetadata

-- Migrated to storage, whatever that held, and loaded by a later session, the flat world reads as it did.
theorem migration_lossless (env : Storage) (kind : Symbol → ComponentStorage) (ops : List SimpleWorld.Op)
    (hfollows : ∀ op ∈ ops, op.Follows kind) :
    let world := SimpleWorld.worldAfter ops
    let stored := migrated env world
    (∀ past e rest, (loadMetadata stored).metadata.entityIds = past ++ e :: rest →
      ((loaded stored past).loadEntity stored e).1 = .ok ()) ∧
    ReadsAlike (reopened stored).toSimpleWorld world := by
  intro world stored
  have h : Indexed kind world := SimpleWorld.invariant_worldAfter ops hfollows
  constructor
  · intro past e rest hids
    have he := (mem_entityIds_migrated env world e).mp (by rw [show _ = _ from hids]; simp)
    obtain ⟨types, htypes⟩ := Option.isSome_iff_exists.mp he
    have hstored := storedTypes_flush_fromSimpleWorld env world e
    rw [htypes, Option.some_or] at hstored
    rw [loadEntity_result, if_pos]
    exact Or.inr (by rw [show storedTypes stored e = _ from hstored]; rfl)
  · exact readsAlike_reopened env h

theorem marked_ship_migrates :
    ReadsAlike (reopened (migrated storeOfTwo (SimpleWorld.worldAfter SimpleWorld.markedShip))).toSimpleWorld
      (SimpleWorld.worldAfter SimpleWorld.markedShip) :=
  (migration_lossless storeOfTwo SimpleWorld.markerKind SimpleWorld.markedShip (by decide)).2

end RoundTrip

end StorageWorld

end Cougr
