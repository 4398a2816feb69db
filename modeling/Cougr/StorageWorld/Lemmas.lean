import Cougr.StorageWorld

namespace Cougr

namespace DirtyTracker

@[simp] theorem mem_push {α : Type} [DecidableEq α] (items : List α) (item other : α) :
    other ∈ push items item ↔ other ∈ items ∨ other = item := by
  unfold push
  split_ifs with h
  · exact ⟨Or.inl, fun hor => hor.elim id fun heq => heq ▸ h⟩
  · simp

theorem eq_new_of_not_isDirty {self : DirtyTracker} (h : ¬self.isDirty) : self = new := by
  obtain ⟨dirtyEntities, dirtyComponents, despawned, newEntities, metaDirty⟩ := self
  simp only [isDirty, Bool.or_eq_true, not_or, Bool.not_eq_true, Bool.not_eq_true',
    Bool.not_eq_false, List.isEmpty_iff] at h
  obtain ⟨⟨⟨⟨rfl, rfl⟩, rfl⟩, rfl⟩, rfl⟩ := h
  rfl

end DirtyTracker

namespace StorageWorld

open KeyedList

-- The type list of a loaded entity.
def typesOf (self : StorageWorld) (entityId : EntityId) : Option (List Symbol) :=
  (lookup LoadedEntity.entityId entityId self.loadedEntities).map LoadedEntity.componentTypes

-- What a session that loads the entity from storage finds there.
def storedTypes (env : Storage) (entityId : EntityId) : Option (List Symbol) :=
  env.get (.entityKey entityId)

def storedData (env : Storage) (entityId : EntityId) (componentType : Symbol) : Option Bytes :=
  env.get (.componentKey entityId componentType)

def storedComponent (env : Storage) (entityId : EntityId) (componentType : Symbol) : Option Bytes :=
  (storedTypes env entityId).bind fun types =>
    if componentType ∈ types then storedData env entityId componentType else none

variable (self : StorageWorld) (env : Storage)

theorem isLoaded_eq (entityId : EntityId) : self.isLoaded entityId = (self.typesOf entityId).isSome := by
  rw [isLoaded, typesOf, Option.isSome_map]
  exact any_eq_isSome_lookup ..

theorem hasComponent_eq (entityId : EntityId) (componentType : Symbol) :
    self.hasComponent entityId componentType = (self.getComponent entityId componentType).isSome := by
  rw [hasComponent, getComponent, Option.isSome_map]
  exact any_eq_isSome_lookup ..

section LoadEntity

theorem lookup_storedComponents (entityId other : EntityId) (types : List Symbol)
    (componentType : Symbol) :
    (lookup LoadedComponent.key (other, componentType) (storedComponents env entityId types)).map
        LoadedComponent.data =
      if other = entityId ∧ componentType ∈ types then storedData env entityId componentType else none := by
  induction types with
  | nil => simp [storedComponents]
  | cons first rest ih =>
      cases hdata : env.get (.componentKey entityId first) with
      | none =>
          have hskip : storedComponents env entityId (first :: rest) =
              storedComponents env entityId rest := by simp [storedComponents, hdata]
          rw [hskip, ih]
          by_cases hfirst : componentType = first
          · subst hfirst
            simp [storedData, hdata]
          · simp [hfirst]
      | some data =>
          have hpush : storedComponents env entityId (first :: rest) =
              ⟨entityId, first, data⟩ :: storedComponents env entityId rest := by
            simp [storedComponents, hdata]
          rw [hpush, lookup_cons]
          by_cases hhit : LoadedComponent.key ⟨entityId, first, data⟩ = (other, componentType)
          · obtain ⟨rfl, rfl⟩ := Prod.mk.inj hhit
            simp [hhit, storedData, hdata]
          · rw [if_neg hhit, ih]
            by_cases hother : other = entityId
            · have hne : componentType ≠ first := fun h => hhit (by simp [LoadedComponent.key, h, hother])
              simp [hne]
            · simp [hother]

theorem loadedEntities_loadEntity (entityId : EntityId) :
    (self.loadEntity env entityId).2.loadedEntities = self.loadedEntities ++
      (if self.isLoaded entityId then none
        else (storedTypes env entityId).map (LoadedEntity.mk entityId)).toList := by
  unfold loadEntity
  split_ifs
  · exact (List.append_nil _).symm
  · cases htypes : env.get (.entityKey entityId) with
    | none => simp [storedTypes, htypes]
    | some types => simp [storedTypes, htypes]

theorem typesOf_loadEntity (entityId other : EntityId) :
    (self.loadEntity env entityId).2.typesOf other =
      (self.typesOf other).or (if other = entityId then storedTypes env entityId else none) := by
  rw [typesOf, loadedEntities_loadEntity, lookup_append, Option.map_or]
  by_cases hloaded : self.isLoaded entityId
  · rw [if_pos hloaded]
    by_cases hother : other = entityId
    · rw [isLoaded_eq, Option.isSome_iff_exists] at hloaded
      obtain ⟨types, htypes⟩ := hloaded
      rw [typesOf] at htypes ⊢
      simp [hother, htypes]
    · simp [typesOf, hother]
  · rw [if_neg hloaded]
    cases storedTypes env entityId with
    | none => simp [typesOf]
    | some types =>
        by_cases hother : other = entityId
        · simp [typesOf, lookup_cons, hother]
        · simp [typesOf, lookup_cons, hother, Ne.symm hother]

theorem getComponent_loadEntity (entityId other : EntityId) (componentType : Symbol) :
    (self.loadEntity env entityId).2.getComponent other componentType =
      (self.getComponent other componentType).or
        (if other = entityId ∧ ¬self.isLoaded entityId then storedComponent env entityId componentType
        else none) := by
  by_cases hloaded : self.isLoaded entityId
  · simp [loadEntity, hloaded]
  · rw [loadEntity, if_neg hloaded]
    cases htypes : env.get (.entityKey entityId) with
    | none => simp [storedComponent, storedTypes, htypes]
    | some types =>
        have hstored := lookup_storedComponents env entityId other types componentType
        simp only [getComponent, lookup_append, Option.map_or, hstored]
        by_cases hother : other = entityId <;>
          simp [hother, hloaded, storedComponent, storedTypes, htypes]

theorem loadEntity_result (entityId : EntityId) :
    (self.loadEntity env entityId).1 =
      if self.isLoaded entityId ∨ (storedTypes env entityId).isSome then .ok () else .error .EntityNotFound := by
  by_cases hloaded : self.isLoaded entityId
  · simp [loadEntity, hloaded]
  · rw [loadEntity, if_neg hloaded]
    cases htypes : env.get (.entityKey entityId) with
    | none => simp [hloaded, storedTypes, htypes]
    | some types => simp [storedTypes, htypes]

@[simp] theorem metadata_loadEntity (entityId : EntityId) :
    (self.loadEntity env entityId).2.metadata = self.metadata := by
  unfold loadEntity
  split_ifs
  · rfl
  · split <;> rfl

@[simp] theorem dirty_loadEntity (entityId : EntityId) :
    (self.loadEntity env entityId).2.dirty = self.dirty := by
  unfold loadEntity
  split_ifs
  · rfl
  · split <;> rfl

-- A new session on the storage that loads the one entity.
def reload (env : Storage) (entityId : EntityId) : Except CougrError Unit × StorageWorld :=
  (loadMetadata env).loadEntity env entityId

theorem reload_result (entityId : EntityId) :
    (reload env entityId).1 =
      if (storedTypes env entityId).isSome then .ok () else .error .EntityNotFound := by
  rw [reload, loadEntity_result]
  simp [isLoaded, loadMetadata]

theorem getComponent_reload (entityId : EntityId) (componentType : Symbol) :
    (reload env entityId).2.getComponent entityId componentType =
      storedComponent env entityId componentType := by
  rw [reload, getComponent_loadEntity]
  simp [isLoaded, getComponent, loadMetadata]

end LoadEntity

section Updates

theorem typesOf_spawnEntity (other : EntityId) :
    self.spawnEntity.2.typesOf other =
      (self.typesOf other).or (if other = self.metadata.nextEntityId then some [] else none) := by
  simp only [spawnEntity, typesOf, lookup_append, Option.map_or, lookup_cons, lookup_nil]
  by_cases hother : other = self.metadata.nextEntityId
  · simp [hother]
  · simp [hother, Ne.symm hother]

@[simp] theorem getComponent_spawnEntity (other : EntityId) (componentType : Symbol) :
    self.spawnEntity.2.getComponent other componentType = self.getComponent other componentType := rfl

theorem typesOf_addComponent (entityId other : EntityId) (componentType : Symbol) (data : Bytes) :
    (self.addComponent entityId componentType data).typesOf other =
      if other = entityId then some (addType componentType ((self.typesOf entityId).getD []))
      else self.typesOf other := by
  have hloaded := self.isLoaded_eq entityId
  rw [typesOf, Option.isSome_map] at hloaded
  simp only [typesOf, addComponent, hloaded]
  cases hlookup : lookup LoadedEntity.entityId entityId self.loadedEntities with
  | none =>
      simp only [Option.isSome_none, Bool.false_eq_true, if_false, lookup_append, Option.map_or,
        lookup_cons, lookup_nil]
      by_cases hother : other = entityId
      · simp [hother, hlookup, addType]
      · simp [hother, Ne.symm hother]
  | some le =>
      simp only [Option.isSome_some, if_true]
      rw [lookup_modifyFirst (by simp)]
      by_cases hother : other = entityId <;> simp [hother, hlookup]

theorem getComponent_addComponent (entityId other : EntityId) (componentType otherType : Symbol)
    (data : Bytes) :
    (self.addComponent entityId componentType data).getComponent other otherType =
      if other = entityId ∧ otherType = componentType then some data
      else self.getComponent other otherType := by
  have hkey : other = entityId ∧ otherType = componentType ↔
      (other, otherType) = (entityId, componentType) := by simp
  simp only [getComponent, addComponent, hkey, any_eq_isSome_lookup]
  generalize (other, otherType) = asked
  cases hlookup : lookup LoadedComponent.key (entityId, componentType) self.loadedComponents with
  | none =>
      simp only [Option.isSome_none, Bool.false_eq_true, if_false, lookup_append, Option.map_or,
        lookup_cons, lookup_nil, LoadedComponent.key]
      by_cases hasked : asked = (entityId, componentType)
      · simp [hasked, hlookup]
      · simp [hasked, Ne.symm hasked]
  | some lc =>
      simp only [Option.isSome_some, if_true]
      rw [lookup_modifyFirst (by simp [LoadedComponent.key])]
      by_cases hasked : asked = (entityId, componentType) <;> simp [hasked, hlookup]

-- The retained list is shorter exactly when the component was there.
theorem length_removeKey_lt_iff (entityId : EntityId) (componentType : Symbol) :
    (removeKey LoadedComponent.key (entityId, componentType) self.loadedComponents).length <
        self.loadedComponents.length ↔
      (self.getComponent entityId componentType).isSome := by
  rw [getComponent, Option.isSome_map, lookup_isSome_iff, removeKey,
    List.length_filter_lt_length_iff_exists]
  simp

theorem removeComponent_result (entityId : EntityId) (componentType : Symbol) :
    (self.removeComponent entityId componentType).1 = (self.getComponent entityId componentType).isSome := by
  by_cases hthere : (self.getComponent entityId componentType).isSome
  · rw [removeComponent, if_pos ((self.length_removeKey_lt_iff ..).mpr hthere), hthere]
  · rw [removeComponent, if_neg (mt (self.length_removeKey_lt_iff ..).mp hthere)]
    simpa using hthere

-- To remove a component that is not loaded changes nothing.
theorem removeComponent_of_none {entityId : EntityId} {componentType : Symbol}
    (hnone : self.getComponent entityId componentType = none) :
    (self.removeComponent entityId componentType).2 = self := by
  have hkept := mt (self.length_removeKey_lt_iff entityId componentType).mp (by simp [hnone])
  rw [removeComponent, if_neg hkept]
  have hsame : removeKey LoadedComponent.key (entityId, componentType) self.loadedComponents =
      self.loadedComponents := by
    rw [getComponent, Option.map_eq_none_iff, lookup_eq_none_iff] at hnone
    exact List.filter_eq_self.mpr (by simpa using hnone)
  rw [hsame]

theorem removeComponent_of_isSome {entityId : EntityId} {componentType : Symbol}
    (hthere : (self.getComponent entityId componentType).isSome) :
    (self.removeComponent entityId componentType).2 =
      { self with
        loadedComponents := removeKey LoadedComponent.key (entityId, componentType) self.loadedComponents
        loadedEntities :=
          modifyFirst LoadedEntity.entityId entityId
            (fun le => { le with componentTypes := le.componentTypes.filter (· ≠ componentType) })
            self.loadedEntities
        metadata := { self.metadata with version := self.metadata.version + 1 }
        dirty := ((self.dirty.markEntityDirty entityId).markComponentDirty entityId
          componentType).markMetaDirty } := by
  rw [removeComponent, if_pos ((self.length_removeKey_lt_iff ..).mpr hthere)]

theorem getComponent_removeComponent (entityId other : EntityId) (componentType otherType : Symbol) :
    (self.removeComponent entityId componentType).2.getComponent other otherType =
      if other = entityId ∧ otherType = componentType then none else self.getComponent other otherType := by
  have hkey : other = entityId ∧ otherType = componentType ↔
      (other, otherType) = (entityId, componentType) := by simp
  by_cases hthere : (self.getComponent entityId componentType).isSome
  · rw [self.removeComponent_of_isSome hthere]
    simp only [getComponent, hkey, lookup_removeKey]
    split_ifs <;> rfl
  · rw [Option.not_isSome_iff_eq_none] at hthere
    rw [self.removeComponent_of_none hthere]
    split_ifs with hsame
    · rw [hsame.1, hsame.2, hthere]
    · rfl

theorem typesOf_removeComponent (entityId other : EntityId) (componentType : Symbol) :
    (self.removeComponent entityId componentType).2.typesOf other =
      if other = entityId ∧ (self.getComponent entityId componentType).isSome then
        (self.typesOf entityId).map (·.filter (· ≠ componentType))
      else self.typesOf other := by
  by_cases hthere : (self.getComponent entityId componentType).isSome
  · rw [self.removeComponent_of_isSome hthere]
    simp only [typesOf, hthere, and_true]
    rw [lookup_modifyFirst (by simp)]
    by_cases hother : other = entityId
    · simp [hother, Function.comp_def]
    · simp [hother]
  · rw [Option.not_isSome_iff_eq_none] at hthere
    rw [self.removeComponent_of_none hthere]
    simp [hthere]

theorem typesOf_despawnEntity (entityId other : EntityId) :
    (self.despawnEntity entityId).typesOf other = if other = entityId then none else self.typesOf other := by
  simp only [typesOf, despawnEntity, lookup_removeKey]
  split_ifs <;> rfl

theorem getComponent_despawnEntity (entityId other : EntityId) (componentType : Symbol) :
    (self.despawnEntity entityId).getComponent other componentType =
      if other = entityId then none else self.getComponent other componentType := by
  have h : lookup LoadedComponent.key (other, componentType) (self.despawnEntity entityId).loadedComponents =
      if decide (other ≠ entityId) then lookup LoadedComponent.key (other, componentType) self.loadedComponents
      else none :=
    lookup_filter (other, componentType) (fun k => decide (k.1 ≠ entityId)) self.loadedComponents
  rw [getComponent, h, getComponent]
  by_cases hother : other = entityId <;> simp [hother]

-- What each operation marks dirty.

theorem mem_dirtyEntities_spawnEntity (e : EntityId) : e ∈ self.spawnEntity.2.dirty.dirtyEntities ↔
    e ∈ self.dirty.dirtyEntities ∨ e = self.metadata.nextEntityId := DirtyTracker.mem_push ..

theorem mem_dirtyEntities_addComponent (entityId e : EntityId) (componentType : Symbol) (data : Bytes) :
    e ∈ (self.addComponent entityId componentType data).dirty.dirtyEntities ↔
      e ∈ self.dirty.dirtyEntities ∨ e = entityId := DirtyTracker.mem_push ..

theorem mem_dirtyComponents_addComponent (entityId : EntityId) (componentType : Symbol) (data : Bytes)
    (entry : EntityId × Symbol) :
    entry ∈ (self.addComponent entityId componentType data).dirty.dirtyComponents ↔
      entry ∈ self.dirty.dirtyComponents ∨ entry = (entityId, componentType) := DirtyTracker.mem_push ..

theorem mem_dirtyEntities_removeComponent (entityId e : EntityId) (componentType : Symbol) :
    e ∈ (self.removeComponent entityId componentType).2.dirty.dirtyEntities ↔
      e ∈ self.dirty.dirtyEntities ∨
        e = entityId ∧ (self.getComponent entityId componentType).isSome := by
  by_cases hthere : (self.getComponent entityId componentType).isSome
  · rw [self.removeComponent_of_isSome hthere]
    simp only [hthere, and_true]
    exact DirtyTracker.mem_push ..
  · rw [self.removeComponent_of_none (by simpa using hthere)]
    simp [hthere]

theorem mem_dirtyComponents_removeComponent (entityId : EntityId) (componentType : Symbol)
    (entry : EntityId × Symbol) :
    entry ∈ (self.removeComponent entityId componentType).2.dirty.dirtyComponents ↔
      entry ∈ self.dirty.dirtyComponents ∨
        entry = (entityId, componentType) ∧ (self.getComponent entityId componentType).isSome := by
  by_cases hthere : (self.getComponent entityId componentType).isSome
  · rw [self.removeComponent_of_isSome hthere]
    simp only [hthere, and_true]
    exact DirtyTracker.mem_push ..
  · rw [self.removeComponent_of_none (by simpa using hthere)]
    simp [hthere]

@[simp] theorem despawned_removeComponent (entityId : EntityId) (componentType : Symbol) :
    (self.removeComponent entityId componentType).2.dirty.despawned = self.dirty.despawned := by
  by_cases hthere : (self.getComponent entityId componentType).isSome
  · rw [self.removeComponent_of_isSome hthere]
    rfl
  · rw [self.removeComponent_of_none (by simpa using hthere)]

@[simp] theorem nextEntityId_removeComponent (entityId : EntityId) (componentType : Symbol) :
    (self.removeComponent entityId componentType).2.metadata.nextEntityId = self.metadata.nextEntityId := by
  by_cases hthere : (self.getComponent entityId componentType).isSome
  · rw [self.removeComponent_of_isSome hthere]
  · rw [self.removeComponent_of_none (by simpa using hthere)]

theorem mem_despawned_despawnEntity (entityId e : EntityId) :
    e ∈ (self.despawnEntity entityId).dirty.despawned ↔ e ∈ self.dirty.despawned ∨ e = entityId :=
  DirtyTracker.mem_push ..

-- Only a flush forgets that an entity was despawned.
theorem despawned_step {world : StorageWorld} (op : Op) {e : EntityId}
    (h : e ∈ world.dirty.despawned) : e ∈ (world.step env op).dirty.despawned := by
  cases op with
  | loadEntity entityId =>
      simp only [step, dirty_loadEntity]
      exact h
  | spawnEntity => exact h
  | addComponent entityId componentType data => exact h
  | removeComponent entityId componentType =>
      simp only [step, despawned_removeComponent]
      exact h
  | despawnEntity entityId => exact (mem_despawned_despawnEntity ..).mpr (Or.inl h)

end Updates

section Flush

-- With nothing dirty the loops of `flush` write nothing, so its early return can be ignored.
theorem flush_env : (self.flush env).2 =
    self.dirty.despawned.foldl eraseDespawned
      (self.dirty.dirtyComponents.foldl self.writeComponent
        (self.dirty.dirtyEntities.foldl self.writeEntity (self.writeMetadata env))) := by
  by_cases hdirty : self.dirty.isDirty
  · rw [flush, if_neg (not_not.mpr hdirty)]
  · rw [flush, if_pos hdirty, writeMetadata, DirtyTracker.eq_new_of_not_isDirty hdirty]
    rfl

theorem flush_world : (self.flush env).1 = { self with dirty := .new } := by
  by_cases hdirty : self.dirty.isDirty
  · rw [flush, if_neg (not_not.mpr hdirty)]
    rfl
  · rw [flush, if_pos hdirty, ← DirtyTracker.eq_new_of_not_isDirty hdirty]

@[simp] theorem typesOf_flush (entityId : EntityId) :
    (self.flush env).1.typesOf entityId = self.typesOf entityId := by
  rw [flush_world]
  rfl

@[simp] theorem getComponent_flush (entityId : EntityId) (componentType : Symbol) :
    (self.flush env).1.getComponent entityId componentType = self.getComponent entityId componentType := by
  rw [flush_world]
  rfl

-- The writes of the loops, each on its own.

theorem get_writeMetadata (key : WorldKey) (h : key ≠ .metaKey) :
    (self.writeMetadata env).get key = env.get key := by
  unfold writeMetadata
  split_ifs
  · simp [h]
  · rfl

theorem get_writeEntity_self (entityId : EntityId) :
    (self.writeEntity env entityId).get (.entityKey entityId) =
      (self.typesOf entityId).or (env.get (.entityKey entityId)) := by
  unfold writeEntity typesOf
  cases hlookup : lookup LoadedEntity.entityId entityId self.loadedEntities with
  | none => simp
  | some le => simp

theorem get_writeEntity_of_ne {entityId : EntityId} {key : WorldKey} (h : key ≠ .entityKey entityId) :
    (self.writeEntity env entityId).get key = env.get key := by
  unfold writeEntity
  split
  · simp [h]
  · rfl

theorem get_writeComponent_self {entry : EntityId × Symbol} (h : entry.1 ∉ self.dirty.despawned) :
    (self.writeComponent env entry).get (.componentKey entry.1 entry.2) =
      (self.getComponent entry.1 entry.2).or (env.get (.componentKey entry.1 entry.2)) := by
  unfold writeComponent getComponent
  rw [if_neg h]
  cases hlookup : lookup LoadedComponent.key entry self.loadedComponents with
  | none => simp
  | some lc => simp

theorem get_writeComponent_of_ne {entry : EntityId × Symbol} {key : WorldKey}
    (h : key ≠ .componentKey entry.1 entry.2) : (self.writeComponent env entry).get key = env.get key := by
  unfold writeComponent
  split_ifs
  · rfl
  · split
    · simp [h]
    · rfl

theorem get_eraseDespawned_self (entityId : EntityId) :
    (eraseDespawned env entityId).get (.entityKey entityId) = none := KeyStore.get_remove_self ..

theorem get_eraseDespawned_of_ne {entityId : EntityId} {key : WorldKey} (hentity : key ≠ .entityKey entityId)
    (hcomponent : ∀ componentType, key ≠ .componentKey entityId componentType) :
    (eraseDespawned env entityId).get key = env.get key := by
  unfold eraseDespawned
  dsimp only
  rw [KeyStore.get_remove_of_ne _ hentity, KeyStore.get_foldl_remove, if_neg]
  simpa [eq_comm] using fun componentType _ => hcomponent componentType

theorem get_eraseDespawned_component (entityId other : EntityId) (componentType : Symbol) :
    (eraseDespawned env entityId).get (.componentKey other componentType) =
      if other = entityId ∧ componentType ∈ (storedTypes env entityId).getD [] then none
      else env.get (.componentKey other componentType) := by
  have hmem : ∀ types : List Symbol, WorldKey.componentKey other componentType ∈
      types.map (WorldKey.componentKey entityId) ↔ other = entityId ∧ componentType ∈ types := by
    intro types
    simp [eq_comm, and_comm]
  unfold eraseDespawned storedTypes
  dsimp only
  rw [KeyStore.get_remove_of_ne _ (by simp), KeyStore.get_foldl_remove]
  simp only [hmem]

-- The loops, each under the keys it is about.

theorem get_foldl_writeEntity (entityId : EntityId) (items : List EntityId) :
    (items.foldl self.writeEntity env).get (.entityKey entityId) =
      if entityId ∈ items then (self.typesOf entityId).or (env.get (.entityKey entityId))
      else env.get (.entityKey entityId) := by
  have hother : ∀ store item, item ≠ entityId → (self.writeEntity store item).get (.entityKey entityId) =
      store.get (.entityKey entityId) := fun store item h =>
    self.get_writeEntity_of_ne store (by simpa using h.symm)
  split_ifs with hmem
  · exact KeyStore.get_foldl_of_mem self.writeEntity (.entityKey entityId) entityId
      (fun value => (self.typesOf entityId).or value)
      (fun value => by cases self.typesOf entityId <;> rfl) hother
      (fun store => self.get_writeEntity_self store entityId) hmem env
  · exact KeyStore.get_foldl_of_unchanged
      (fun store item hitem => hother store item fun h => hmem (h ▸ hitem)) env

theorem get_foldl_writeComponent {entry : EntityId × Symbol} (h : entry.1 ∉ self.dirty.despawned)
    (items : List (EntityId × Symbol)) :
    (items.foldl self.writeComponent env).get (.componentKey entry.1 entry.2) =
      if entry ∈ items then
        (self.getComponent entry.1 entry.2).or (env.get (.componentKey entry.1 entry.2))
      else env.get (.componentKey entry.1 entry.2) := by
  have hother : ∀ store item, item ≠ entry →
      (self.writeComponent store item).get (.componentKey entry.1 entry.2) =
        store.get (.componentKey entry.1 entry.2) := by
    intro store item hne
    apply self.get_writeComponent_of_ne store
    intro heq
    apply hne
    obtain ⟨hentity, htype⟩ := WorldKey.componentKey.inj heq
    exact (Prod.ext hentity htype).symm
  split_ifs with hmem
  · exact KeyStore.get_foldl_of_mem self.writeComponent (.componentKey entry.1 entry.2) entry
      (fun value => (self.getComponent entry.1 entry.2).or value)
      (fun value => by cases self.getComponent entry.1 entry.2 <;> rfl) hother
      (fun store => self.get_writeComponent_self store h) hmem env
  · exact KeyStore.get_foldl_of_unchanged
      (fun store item hitem => hother store item fun h => hmem (h ▸ hitem)) env

theorem get_foldl_eraseDespawned (entityId : EntityId) (items : List EntityId) :
    (items.foldl eraseDespawned env).get (.entityKey entityId) =
      if entityId ∈ items then none else env.get (.entityKey entityId) := by
  have hother : ∀ store item, item ≠ entityId → (eraseDespawned store item).get (.entityKey entityId) =
      store.get (.entityKey entityId) := fun store item h =>
    get_eraseDespawned_of_ne store (by simpa using h.symm) (by simp)
  split_ifs with hmem
  · exact KeyStore.get_foldl_of_mem eraseDespawned (.entityKey entityId) entityId (fun _ => none)
      (fun _ => rfl) hother (fun store => get_eraseDespawned_self store entityId) hmem env
  · exact KeyStore.get_foldl_of_unchanged
      (fun store item hitem => hother store item fun h => hmem (h ▸ hitem)) env

-- The loops leave every other key alone.

theorem get_foldl_writeEntity_of_ne {key : WorldKey} (h : ∀ entityId, key ≠ .entityKey entityId)
    (items : List EntityId) : (items.foldl self.writeEntity env).get key = env.get key :=
  KeyStore.get_foldl_of_unchanged (fun store item _ => self.get_writeEntity_of_ne store (h item)) env

theorem get_foldl_writeComponent_of_ne {key : WorldKey}
    (h : ∀ entityId componentType, key ≠ .componentKey entityId componentType)
    (items : List (EntityId × Symbol)) : (items.foldl self.writeComponent env).get key = env.get key :=
  KeyStore.get_foldl_of_unchanged
    (fun store item _ => self.get_writeComponent_of_ne store (h item.1 item.2)) env

theorem get_foldl_eraseDespawned_of_ne {key : WorldKey} {items : List EntityId}
    (hentity : ∀ entityId ∈ items, key ≠ .entityKey entityId)
    (hcomponent : ∀ entityId ∈ items, ∀ componentType, key ≠ .componentKey entityId componentType) :
    (items.foldl eraseDespawned env).get key = env.get key :=
  KeyStore.get_foldl_of_unchanged (fun store item hitem =>
    get_eraseDespawned_of_ne store (hentity item hitem) (hcomponent item hitem)) env

-- The components of a despawned entity are erased by the list that is stored of it; the first turn removes
-- the list, so another one would erase nothing.
theorem get_foldl_eraseDespawned_component (entityId : EntityId) (componentType : Symbol)
    (items : List EntityId) :
    (items.foldl eraseDespawned env).get (.componentKey entityId componentType) =
      if entityId ∈ items ∧ componentType ∈ (storedTypes env entityId).getD [] then none
      else env.get (.componentKey entityId componentType) := by
  induction items generalizing env with
  | nil => simp
  | cons first rest ih =>
      rw [List.foldl_cons, ih, get_eraseDespawned_component]
      by_cases hfirst : entityId = first
      · subst hfirst
        have hgone : storedTypes (eraseDespawned env entityId) entityId = none := get_eraseDespawned_self ..
        simp [hgone]
      · have hkept : storedTypes (eraseDespawned env first) entityId = storedTypes env entityId :=
          get_eraseDespawned_of_ne env (by simpa using hfirst) (by simp)
        simp [hkept, hfirst]

theorem get_foldl_writeComponent_of_despawned {entityId : EntityId} (h : entityId ∈ self.dirty.despawned)
    (componentType : Symbol) (items : List (EntityId × Symbol)) :
    (items.foldl self.writeComponent env).get (.componentKey entityId componentType) =
      env.get (.componentKey entityId componentType) := by
  apply KeyStore.get_foldl_of_unchanged
  intro store item _
  by_cases hitem : item.1 = entityId
  · rw [writeComponent, if_pos (hitem ▸ h)]
  · exact self.get_writeComponent_of_ne store (by simpa using fun heq => absurd heq.symm hitem)

-- What `flush` leaves under each key.

theorem get_flush_metaKey :
    (self.flush env).2.get .metaKey = if self.dirty.metaDirty then some self.metadata else env.get .metaKey := by
  rw [flush_env, get_foldl_eraseDespawned_of_ne _ (by simp) (by simp),
    get_foldl_writeComponent_of_ne _ _ (by simp), get_foldl_writeEntity_of_ne _ _ (by simp), writeMetadata]
  split_ifs
  · simp
  · rfl

theorem storedTypes_flush (entityId : EntityId) :
    storedTypes (self.flush env).2 entityId =
      if entityId ∈ self.dirty.despawned then none
      else if entityId ∈ self.dirty.dirtyEntities then (self.typesOf entityId).or (storedTypes env entityId)
      else storedTypes env entityId := by
  have hmeta := self.get_writeMetadata env (.entityKey entityId) (by simp)
  unfold storedTypes
  rw [flush_env, get_foldl_eraseDespawned, get_foldl_writeComponent_of_ne _ _ (by simp),
    get_foldl_writeEntity, hmeta]

theorem storedData_flush {entityId : EntityId} (h : entityId ∉ self.dirty.despawned)
    (componentType : Symbol) :
    storedData (self.flush env).2 entityId componentType =
      if (entityId, componentType) ∈ self.dirty.dirtyComponents then
        (self.getComponent entityId componentType).or (storedData env entityId componentType)
      else storedData env entityId componentType := by
  have hmeta := self.get_writeMetadata env (.componentKey entityId componentType) (by simp)
  have hwritten := fun store => self.get_foldl_writeComponent store
    (show (entityId, componentType).1 ∉ self.dirty.despawned from h)
  have hkept : ∀ other ∈ self.dirty.despawned, ∀ otherType,
      WorldKey.componentKey entityId componentType ≠ .componentKey other otherType := by
    intro other hother otherType heq
    cases heq
    exact h hother
  unfold storedData
  rw [flush_env, get_foldl_eraseDespawned_of_ne _ (by simp) hkept, hwritten,
    get_foldl_writeEntity_of_ne _ _ (by simp), hmeta]

-- The list of the entity once the loop over the dirty entities is through.
def writtenTypes (entityId : EntityId) : Option (List Symbol) :=
  if entityId ∈ self.dirty.dirtyEntities then (self.typesOf entityId).or (storedTypes env entityId)
  else storedTypes env entityId

-- That list decides which components of a despawned entity are erased.
theorem storedData_flush_of_despawned {entityId : EntityId} (h : entityId ∈ self.dirty.despawned)
    (componentType : Symbol) :
    (storedData (self.flush env).2 entityId componentType).isSome ↔
      (storedData env entityId componentType).isSome ∧
        componentType ∉ (self.writtenTypes env entityId).getD [] := by
  have hlist := self.get_writeMetadata env (.entityKey entityId) (by simp)
  have hdata := self.get_writeMetadata env (.componentKey entityId componentType) (by simp)
  have hwritten : storedTypes (self.dirty.dirtyComponents.foldl self.writeComponent
      (self.dirty.dirtyEntities.foldl self.writeEntity (self.writeMetadata env))) entityId =
        self.writtenTypes env entityId := by
    rw [storedTypes, get_foldl_writeComponent_of_ne _ _ (by simp), get_foldl_writeEntity, hlist]
    rfl
  unfold storedData
  rw [flush_env, get_foldl_eraseDespawned_component, hwritten, get_foldl_writeComponent_of_despawned _ _ h,
    get_foldl_writeEntity_of_ne _ _ (by simp), hdata]
  by_cases hmem : componentType ∈ (self.writtenTypes env entityId).getD [] <;> simp [h, hmem]

end Flush

end StorageWorld

end Cougr
