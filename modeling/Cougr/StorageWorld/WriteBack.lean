import Cougr.StorageWorld.Conversion
import Cougr.StorageWorld.Durability

namespace Cougr

namespace SimpleWorld

def Op.AddsTo (op : Op) (entityId : EntityId) : Prop :=
  ∃ componentType data storage, op = .addComponentWithStorage entityId componentType data storage

theorem get_entityComponents_dropType {world : SimpleWorld} {e : EntityId}
    (hnone : world.entityComponents.get e = none) (e' : EntityId) (t : Symbol) :
    (world.dropType e' t).entityComponents.get e = none := by
  unfold dropType
  split
  · exact hnone
  · rename_i types hlist
    have he : e ≠ e' := by
      rintro rfl
      rw [hnone] at hlist
      cases hlist
    dsimp only
    split_ifs
    · rwa [Map.get_erase, if_neg he]
    · rwa [Map.get_set, if_neg he]

-- Only an addition gives a type list to an entity that has none.
theorem get_entityComponents_step {world : SimpleWorld} {op : Op} {e : EntityId}
    (hnone : world.entityComponents.get e = none) (hadds : ¬op.AddsTo e) :
    (world.step op).entityComponents.get e = none := by
  cases op with
  | spawnEntity => exact hnone
  | addComponentWithStorage e' t data storage =>
      have he : e ≠ e' := by
        rintro rfl
        exact hadds ⟨t, data, storage, rfl⟩
      simp only [step, addComponentWithStorage, Map.get_set, if_neg he]
      exact hnone
  | removeComponent e' t =>
      rw [step, removeComponent_eq]
      split_ifs
      · exact @get_entityComponents_dropType (world.clearKey (e', t)) e hnone e' t
      · exact hnone
  | despawnEntity e' =>
      simp only [step, despawnEntity, Map.get_erase]
      split_ifs
      · rfl
      · exact hnone

theorem get_entityComponents_run {world : SimpleWorld} {ops : List Op} {e : EntityId}
    (hnone : world.entityComponents.get e = none) (hadds : ∀ op ∈ ops, ¬op.AddsTo e) :
    (Transition.run step world ops).entityComponents.get e = none :=
  Transition.run_invariant_of_forall (fun world : SimpleWorld => world.entityComponents.get e = none)
    (fun world op h hop => @get_entityComponents_step world op e h hop) hnone ops hadds

-- The last thing that happened to the entity as a whole is that it was despawned.
def Despawned (ops : List Op) (e : EntityId) : Prop :=
  ∃ past rest, ops = past ++ .despawnEntity e :: rest ∧ ∀ op ∈ rest, ¬op.AddsTo e

theorem get_entityComponents_of_despawned {world : SimpleWorld} {ops : List Op} {e : EntityId}
    (h : Despawned ops e) : (Transition.run step world ops).entityComponents.get e = none := by
  obtain ⟨past, rest, rfl, hrest⟩ := h
  rw [Transition.run_append, Transition.run_cons]
  apply get_entityComponents_run _ hrest
  simp [step, despawnEntity]

theorem mem_types_step {world : SimpleWorld} {op : Op} {e : EntityId} {t : Symbol}
    (h : t ∈ (world.step op).types e) (htarget : ¬op.Targets e t) : t ∈ world.types e := by
  cases op with
  | spawnEntity => exact h
  | addComponentWithStorage e' t' data storage =>
      rw [step, mem_types_add] at h
      exact h.resolve_right htarget
  | removeComponent e' t' =>
      rw [step, types_removeComponent] at h
      split_ifs at h with hdrop
      · rw [hdrop.2]
        exact (List.mem_filter.mp h).1
      · exact h
  | despawnEntity e' =>
      rw [step, types_despawn] at h
      split_ifs at h
      · cases h
      · exact h

end SimpleWorld

namespace StorageWorld

open KeyedList

section Load

-- A session that loads the entities in turn; an id that is not stored stays out.
def loaded (env : Storage) (ids : List EntityId) : StorageWorld :=
  Transition.run (step env) (loadMetadata env) (ids.map Op.loadEntity)

-- A world that has only been loaded into holds what storage holds.
structure Mirrored (env : Storage) (ids : List EntityId) (world : StorageWorld) : Prop where
  entities : ∀ le ∈ world.loadedEntities, le.entityId ∈ ids
  data : ∀ le ∈ world.loadedEntities, ∀ t ∈ le.componentTypes,
    world.getComponent le.entityId t = storedData env le.entityId t
  unloaded : ∀ e, ¬world.isLoaded e → ∀ t, world.getComponent e t = none

variable {env : Storage} {world : StorageWorld}

theorem mem_loadedEntities_loadEntity {e : EntityId} {le : LoadedEntity} :
    le ∈ (world.loadEntity env e).2.loadedEntities ↔
      le ∈ world.loadedEntities ∨
        ¬world.isLoaded e ∧ le.entityId = e ∧ storedTypes env e = some le.componentTypes := by
  rw [loadedEntities_loadEntity, List.mem_append, Option.mem_toList]
  obtain ⟨entityId, componentTypes⟩ := le
  by_cases hloaded : world.isLoaded e
  · simp [hloaded]
  · simp [hloaded, and_comm, eq_comm]

theorem mirrored_loadEntity {ids : List EntityId} (h : Mirrored env ids world) (e : EntityId) :
    Mirrored env (ids ++ [e]) (world.loadEntity env e).2 := by
  have hget := getComponent_loadEntity world env e
  constructor
  · intro le hle
    rcases mem_loadedEntities_loadEntity.mp hle with hbefore | ⟨_, hid, _⟩
    · exact List.mem_append_left _ (h.entities le hbefore)
    · exact List.mem_append_right _ (List.mem_singleton.mpr hid)
  · intro le hle t ht
    rcases mem_loadedEntities_loadEntity.mp hle with hbefore | ⟨hloaded, hid, hstored⟩
    · have hold : ¬(le.entityId = e ∧ ¬world.isLoaded e) := by
        rintro ⟨rfl, hloaded⟩
        exact hloaded (List.any_eq_true.mpr ⟨le, hbefore, by simp⟩)
      rw [hget, if_neg hold, Option.or_none]
      exact h.data le hbefore t ht
    · rw [hid, hget, h.unloaded e hloaded, if_pos ⟨rfl, hloaded⟩, Option.none_or, storedComponent, hstored,
        Option.bind_some, if_pos ht]
  · intro other hother t
    have hbefore : ¬world.isLoaded other := by
      intro hin
      obtain ⟨le, hle, hid⟩ := List.any_eq_true.mp hin
      exact hother (List.any_eq_true.mpr ⟨le, mem_loadedEntities_loadEntity.mpr (Or.inl hle), hid⟩)
    rw [hget, h.unloaded other hbefore, Option.none_or]
    split_ifs with hnew
    · obtain ⟨rfl, hloaded⟩ := hnew
      cases hstored : storedTypes env other with
      | none => rw [storedComponent, hstored, Option.bind_none]
      | some types =>
          have hadded : ⟨other, types⟩ ∈ (world.loadEntity env other).2.loadedEntities :=
            mem_loadedEntities_loadEntity.mpr (Or.inr ⟨hloaded, rfl, hstored⟩)
          exact absurd (List.any_eq_true.mpr ⟨_, hadded, by simp⟩) hother
    · rfl

theorem mirrored_loaded (env : Storage) (ids : List EntityId) : Mirrored env ids (loaded env ids) := by
  induction ids using List.reverseRecOn with
  | nil => exact ⟨fun le hle => absurd hle List.not_mem_nil, fun le hle => absurd hle List.not_mem_nil,
      fun _ _ _ => rfl⟩
  | append_singleton ids e ih =>
      rw [loaded, List.map_append, List.map_singleton, Transition.run_concat]
      exact mirrored_loadEntity ih e

-- The conversion lists an entity as its last loaded copy does, and shows what storage holds of that list.
theorem Mirrored.getComponent_toSimpleWorld {ids : List EntityId} (h : Mirrored env ids world) {e : EntityId}
    {t : Symbol} (ht : t ∈ world.toSimpleWorld.types e) :
    world.toSimpleWorld.getComponent e t = storedData env e t := by
  rw [types_toSimpleWorld, shownTypes, shownList] at ht
  cases hlookup : lookup LoadedEntity.entityId e world.loadedEntities.reverse with
  | none => simp [hlookup] at ht
  | some le =>
      simp only [hlookup, Option.map_some, Option.getD_some] at ht
      have hmem := List.mem_reverse.mp (List.mem_of_find?_eq_some hlookup)
      have hid : le.entityId = e := by simpa using List.find?_some hlookup
      rw [StorageWorld.getComponent_toSimpleWorld, if_pos ⟨le, hmem, hid, ht⟩, ← hid]
      exact h.data le hmem t ht

theorem Mirrored.get_entityComponents_of_not_mem {ids : List EntityId} (h : Mirrored env ids world)
    {e : EntityId} (he : e ∉ ids) : world.toSimpleWorld.entityComponents.get e = none := by
  have hnone : lookup LoadedEntity.entityId e world.loadedEntities.reverse = none := by
    rw [lookup_eq_none_iff]
    rintro le hle rfl
    exact he (h.entities le (List.mem_reverse.mp hle))
  rw [get_entityComponents_toSimpleWorld, shownList, hnone]
  rfl

end Load

section Work

-- What a listed component without data lacks in the world it lacks in storage as well, so a write of
-- the world can leave nothing old behind under its list.
def ListedInSight (env : Storage) (world : SimpleWorld) : Prop :=
  ∀ e t, t ∈ world.types e → world.getComponent e t = none → storedData env e t = none

variable {env : Storage}

theorem listedInSight_step {world : SimpleWorld} (h : ListedInSight env world) (op : SimpleWorld.Op) :
    ListedInSight env (world.step op) := by
  intro e t ht hnone
  by_cases htarget : op.Targets e t
  · cases op with
    | spawnEntity => exact absurd htarget id
    | addComponentWithStorage e' t' data storage =>
        obtain ⟨rfl, rfl⟩ := htarget
        rw [SimpleWorld.step, SimpleWorld.getComponent, SimpleWorld.get_components_add,
          SimpleWorld.get_sparseComponents_add] at hnone
        cases storage <;> simp at hnone
    | removeComponent e' t' =>
        obtain ⟨rfl, rfl⟩ := htarget
        rw [SimpleWorld.step, SimpleWorld.types_removeComponent] at ht
        split_ifs at ht with hdrop
        · simp at ht
        · have habsent : world.getComponent e t = none := by
            simpa [SimpleWorld.hasComponent_eq_isSome] using hdrop
          exact h e t ht habsent
    | despawnEntity e' =>
        cases (show e = e' from htarget)
        rw [SimpleWorld.step, SimpleWorld.types_despawn, if_pos rfl] at ht
        cases ht
  · rw [SimpleWorld.getComponent_step_of_not_targets world op e t htarget] at hnone
    exact h e t (SimpleWorld.mem_types_step ht htarget) hnone

-- The flat world after the systems have run on it.
def worked (env : Storage) (ids : List EntityId) (ops : List SimpleWorld.Op) : SimpleWorld :=
  Transition.run SimpleWorld.step (loaded env ids).toSimpleWorld ops

theorem listedInSight_worked (env : Storage) (ids : List EntityId) (ops : List SimpleWorld.Op) :
    ListedInSight env (worked env ids ops) := by
  apply Transition.run_invariant_of_step (ListedInSight env) (fun _ op h => listedInSight_step h op)
  intro e t ht hnone
  rwa [(mirrored_loaded env ids).getComponent_toSimpleWorld ht] at hnone

end Work

section WriteBack

def writtenBack (env : Storage) (ids : List EntityId) (ops : List SimpleWorld.Op) : Storage :=
  ((fromSimpleWorld (worked env ids ops)).flush env).2

variable (env : Storage) (world : SimpleWorld)

theorem storedMetadata_flush_fromSimpleWorld :
    storedMetadata ((fromSimpleWorld world).flush env).2 =
      ⟨world.nextEntityId, world.version, world.entityComponents.keys.length, world.entityComponents.keys⟩ := by
  have hmeta := get_flush_metaKey (fromSimpleWorld world) env
  rw [if_pos (metaDirty_fromSimpleWorld world), (taken_fromSimpleWorld world).metadata] at hmeta
  simp [storedMetadata, loadMetadata, hmeta]

theorem storedTypes_flush_fromSimpleWorld (e : EntityId) :
    storedTypes ((fromSimpleWorld world).flush env).2 e =
      (world.entityComponents.get e).or (storedTypes env e) := by
  have htaken := taken_fromSimpleWorld world
  rw [storedTypes_flush, htaken.despawned, if_neg List.not_mem_nil, typesOf_fromSimpleWorld]
  have hdirty := htaken.dirtyEntities e
  rw [Map.mem_keys, and_self] at hdirty
  split_ifs with hmem
  · rfl
  · have hnone : world.entityComponents.get e = none := by simpa using mt hdirty.mpr hmem
    rw [hnone]
    rfl

theorem storedData_flush_fromSimpleWorld (e : EntityId) (t : Symbol) :
    storedData ((fromSimpleWorld world).flush env).2 e t =
      if t ∈ world.types e then (world.getComponent e t).or (storedData env e t) else storedData env e t := by
  have htaken := taken_fromSimpleWorld world
  have hpresent : e ∉ (fromSimpleWorld world).dirty.despawned := by
    rw [htaken.despawned]
    exact List.not_mem_nil
  rw [storedData_flush _ _ hpresent, getComponent_fromSimpleWorld]
  have hdirty := htaken.dirtyComponents e t
  by_cases ht : t ∈ world.types e
  · have hkey := SimpleWorld.mem_entityComponents_keys ht
    rw [if_pos ht, if_pos ht]
    split_ifs with hmem
    · rfl
    · have hnone : world.getComponent e t = none := by
        simpa using fun hdata => hmem (hdirty.mpr ⟨hkey, ht, hdata⟩)
      rw [hnone]
      rfl
  · rw [if_neg ht, if_neg ht]
    split_ifs <;> rfl

open SimpleWorld (Despawned)

-- What comes back from a write through the flat world. Its metadata knows the entities with a type list
-- and no others; these read back as the flat world lists them. Every other entity keeps its entries,
-- the ones that were never loaded as well as those that were despawned.
structure WritesBack (env : Storage) (ids : List EntityId) (ops : List SimpleWorld.Op) : Prop where
  metadata : (loadMetadata (writtenBack env ids ops)).metadata =
    ⟨(worked env ids ops).nextEntityId, (worked env ids ops).version,
      (worked env ids ops).entityComponents.keys.length, (worked env ids ops).entityComponents.keys⟩
  listed : ∀ e types, (worked env ids ops).entityComponents.get e = some types →
    (reload (writtenBack env ids ops) e).1 = .ok () ∧
    ∀ t, (reload (writtenBack env ids ops) e).2.getComponent e t =
      if t ∈ types then (worked env ids ops).getComponent e t else none
  unlisted : ∀ e, (worked env ids ops).entityComponents.get e = none →
    Host.SameEntries env (writtenBack env ids ops) e
  unloaded : ∀ e, e ∉ ids → (∀ op ∈ ops, ¬op.AddsTo e) → (worked env ids ops).entityComponents.get e = none
  despawned : ∀ e, Despawned ops e → (worked env ids ops).entityComponents.get e = none

theorem writesBack (env : Storage) (ids : List EntityId) (ops : List SimpleWorld.Op) :
    WritesBack env ids ops where
  metadata := storedMetadata_flush_fromSimpleWorld env _
  listed := by
    intro e types htypes
    have hstored := storedTypes_flush_fromSimpleWorld env (worked env ids ops) e
    rw [htypes, Option.some_or] at hstored
    have hlist : (worked env ids ops).types e = types := by rw [SimpleWorld.types, htypes, Option.getD_some]
    constructor
    · rw [reload_result, writtenBack, hstored]
      rfl
    · intro t
      rw [getComponent_reload, storedComponent, writtenBack, hstored, Option.bind_some,
        storedData_flush_fromSimpleWorld, hlist]
      by_cases ht : t ∈ types
      · have hsight := listedInSight_worked env ids ops e t (hlist ▸ ht)
        cases hdata : (worked env ids ops).getComponent e t with
        | none => simp [ht, hsight hdata]
        | some data => simp [ht]
      · simp [ht]
  unlisted := by
    intro e hnone
    constructor
    · rw [writtenBack, storedTypes_flush_fromSimpleWorld, hnone]
      rfl
    · intro t
      rw [writtenBack, storedData_flush_fromSimpleWorld, SimpleWorld.types, hnone, Option.getD_none,
        if_neg List.not_mem_nil]
  unloaded := by
    intro e he hadds
    have hconverted := (mirrored_loaded env ids).get_entityComponents_of_not_mem he
    exact SimpleWorld.get_entityComponents_run hconverted hadds
  despawned := by
    intro e hdespawned
    exact SimpleWorld.get_entityComponents_of_despawned hdespawned

-- Storage would keep up with the flat world if entities that were not loaded stayed listed, despawned
-- ones were gone and the rest read back as they are.
structure KeepsUp (env : Storage) (ids : List EntityId) (ops : List SimpleWorld.Op) : Prop where
  unloaded : ∀ e, (storedTypes env e).isSome → e ∉ ids →
    e ∈ (loadMetadata (writtenBack env ids ops)).metadata.entityIds
  despawned : ∀ e ∈ ids, (storedTypes env e).isSome → Despawned ops e →
    (reload (writtenBack env ids ops) e).1 = .error .EntityNotFound
  kept : ∀ e ∈ ids, (storedTypes env e).isSome → ¬Despawned ops e →
    (reload (writtenBack env ids ops) e).1 = .ok () ∧
    ∀ t, (reload (writtenBack env ids ops) e).2.getComponent e t = (worked env ids ops).getComponent e t

-- Of two stored entities one is loaded; writing it back takes the other out of the metadata.
def storeOfTwo : Storage :=
  (Transition.run Host.step Host.empty [.op .spawnEntity, .op (.addComponent 1 Host.pos [1]), .op .spawnEntity,
    .op (.addComponent 2 Host.pos [2]), .flush]).env

theorem unloaded_not_kept : ¬KeepsUp storeOfTwo [1] [] := by
  intro hkeeps
  have hlisted := hkeeps.unloaded 2 (by decide) (by decide)
  have hmetadata := storedMetadata_flush_fromSimpleWorld storeOfTwo (worked storeOfTwo [1] [])
  rw [writtenBack, ← storedMetadata, hmetadata, Map.mem_keys] at hlisted
  have hnone := (mirrored_loaded storeOfTwo [1]).get_entityComponents_of_not_mem (e := 2) (by decide)
  rw [worked, Transition.run_nil, hnone] at hlisted
  cases hlisted

-- A despawned entity that was loaded still loads with its old component.
theorem despawned_not_gone : ¬KeepsUp storeOfTwo [1] [.despawnEntity 1] := by
  intro hkeeps
  have hgone := hkeeps.despawned 1 (by decide) (by decide) ⟨[], [], rfl, by simp⟩
  revert hgone
  rw [reload_result, writtenBack, storedTypes_flush_fromSimpleWorld]
  decide

end WriteBack

end StorageWorld

end Cougr
