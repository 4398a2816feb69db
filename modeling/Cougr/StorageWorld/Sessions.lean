import Cougr.StorageWorld.Lemmas
import Cougr.Library.Transition

namespace Cougr

namespace StorageWorld

def storedMetadata (env : Storage) : WorldMetadata := (loadMetadata env).metadata

-- What flushed sessions leave in storage.
structure StorageFits (env : Storage) : Prop where
  listed : ∀ e types, storedTypes env e = some types → ∀ t ∈ types, (storedData env e t).isSome
  below : ∀ e types, storedTypes env e = some types → e < (storedMetadata env).nextEntityId

-- One entity of a world: what is loaded and not dirty is what storage holds.
structure CoherentAt (env : Storage) (world : StorageWorld) (e : EntityId) : Prop where
  listed : ∀ types, world.typesOf e = some types → ∀ t, t ∈ types ↔ (world.getComponent e t).isSome
  unloaded : world.typesOf e = none → ∀ t, world.getComponent e t = none
  below : ∀ types, world.typesOf e = some types → e < world.metadata.nextEntityId
  typesKept : ∀ types, world.typesOf e = some types → e ∉ world.dirty.dirtyEntities →
    storedTypes env e = some types
  dataKept : ∀ t data, world.getComponent e t = some data → (e, t) ∉ world.dirty.dirtyComponents →
    storedData env e t = some data
  despawned : e ∈ world.dirty.despawned → world.typesOf e = none ∧ e < world.metadata.nextEntityId

structure Coherent (env : Storage) (world : StorageWorld) : Prop where
  entities : ∀ e, CoherentAt env world e
  metaKept : world.dirty.metaDirty = false → storedMetadata env = world.metadata
  nextGrows : (storedMetadata env).nextEntityId ≤ world.metadata.nextEntityId

variable {env : Storage} {world : StorageWorld}

theorem coherent_loadMetadata (env : Storage) : Coherent env (loadMetadata env) where
  entities _ :=
    { listed := nofun
      unloaded := fun _ _ => rfl
      below := nofun
      typesKept := nofun
      dataKept := nofun
      despawned := nofun }
  metaKept _ := rfl
  nextGrows := Nat.le_refl _

-- A step that does not concern the entity may still mark others and move the id counter.
theorem CoherentAt.frame {world' : StorageWorld} {e : EntityId} (h : CoherentAt env world e)
    (htypes : world'.typesOf e = world.typesOf e)
    (hdata : ∀ t, world'.getComponent e t = world.getComponent e t)
    (hentities : e ∈ world.dirty.dirtyEntities → e ∈ world'.dirty.dirtyEntities)
    (hcomponents : ∀ t, (e, t) ∈ world.dirty.dirtyComponents → (e, t) ∈ world'.dirty.dirtyComponents)
    (hdespawned : e ∈ world'.dirty.despawned → e ∈ world.dirty.despawned)
    (hnext : world.metadata.nextEntityId ≤ world'.metadata.nextEntityId) : CoherentAt env world' e := by
  constructor
  · intro types hloaded t
    rw [hdata]
    exact h.listed types (htypes ▸ hloaded) t
  · intro hloaded t
    rw [hdata]
    exact h.unloaded (htypes ▸ hloaded) t
  · intro types hloaded
    exact Nat.lt_of_lt_of_le (h.below types (htypes ▸ hloaded)) hnext
  · intro types hloaded hclean
    exact h.typesKept types (htypes ▸ hloaded) (mt hentities hclean)
  · intro t data hthere hclean
    exact h.dataKept t data (hdata t ▸ hthere) (mt (hcomponents t) hclean)
  · intro hmem
    obtain ⟨hnone, hbelow⟩ := h.despawned (hdespawned hmem)
    exact ⟨htypes.trans hnone, Nat.lt_of_lt_of_le hbelow hnext⟩

theorem typesOf_of_isLoaded {e : EntityId} (hloaded : world.isLoaded e) :
    ∃ types, world.typesOf e = some types := by
  rwa [isLoaded_eq, Option.isSome_iff_exists] at hloaded

-- An entity that the world has just as it is stored.
theorem coherentAt_of_stored {e : EntityId} (hstorage : StorageFits env)
    (htypes : world.typesOf e = storedTypes env e)
    (hdata : ∀ t, world.getComponent e t = storedComponent env e t)
    (hnext : (storedMetadata env).nextEntityId ≤ world.metadata.nextEntityId)
    (hpresent : e ∉ world.dirty.despawned) : CoherentAt env world e := by
  constructor
  · intro types hstored t
    rw [htypes] at hstored
    rw [hdata, storedComponent, hstored]
    by_cases hmem : t ∈ types
    · simpa [hmem] using hstorage.listed e types hstored t hmem
    · simp [hmem]
  · intro hstored t
    rw [htypes] at hstored
    rw [hdata, storedComponent, hstored]
    rfl
  · intro types hstored
    rw [htypes] at hstored
    exact Nat.lt_of_lt_of_le (hstorage.below e types hstored) hnext
  · intro types hstored _
    rwa [htypes] at hstored
  · intro t data hthere _
    rw [hdata, storedComponent, Option.bind_eq_some_iff] at hthere
    obtain ⟨types, _, hthere⟩ := hthere
    split_ifs at hthere
    exact hthere
  · intro hmem
    exact absurd hmem hpresent

theorem coherent_loadEntity (hstorage : StorageFits env) (h : Coherent env world) {entityId : EntityId}
    (hpresent : entityId ∉ world.dirty.despawned) : Coherent env (world.loadEntity env entityId).2 := by
  refine ⟨fun other => ?_, by simpa using h.metaKept, by simpa using h.nextGrows⟩
  have hat := h.entities other
  by_cases hother : other = entityId
  · subst hother
    cases hloaded : world.typesOf other with
    | some types =>
        refine hat.frame ?_ ?_ (by simp) (by simp) (by simp) (by simp)
        · rw [typesOf_loadEntity, hloaded]
          rfl
        · intro t
          rw [getComponent_loadEntity, isLoaded_eq, hloaded]
          simp
    | none =>
        have htypes : (world.loadEntity env other).2.typesOf other = storedTypes env other := by
          rw [typesOf_loadEntity, hloaded, if_pos rfl]
          rfl
        have hdata : ∀ t, (world.loadEntity env other).2.getComponent other t = storedComponent env other t := by
          intro t
          rw [getComponent_loadEntity, hat.unloaded hloaded, isLoaded_eq, hloaded, if_pos (by simp)]
          rfl
        exact coherentAt_of_stored hstorage htypes hdata (by simpa using h.nextGrows) (by simpa using hpresent)
  · refine hat.frame ?_ ?_ (by simp) (by simp) (by simp) (by simp)
    · rw [typesOf_loadEntity, if_neg hother, Option.or_none]
    · intro t
      rw [getComponent_loadEntity, if_neg fun heq => hother heq.1, Option.or_none]

theorem coherent_spawnEntity (h : Coherent env world) : Coherent env world.spawnEntity.2 := by
  refine ⟨fun other => ?_, nofun, Nat.le_succ_of_le h.nextGrows⟩
  by_cases hother : other = world.metadata.nextEntityId
  · -- the new id is not below the counter, so nothing of it was loaded
    have hnone : world.typesOf other = none := by
      by_contra hsome
      obtain ⟨types, htypes⟩ := Option.ne_none_iff_exists'.mp hsome
      exact absurd ((h.entities other).below types htypes) (by simp [hother])
    have hdata := (h.entities other).unloaded hnone
    have htypes : world.spawnEntity.2.typesOf other = some [] := by
      rw [typesOf_spawnEntity, hnone, if_pos hother]
      rfl
    constructor
    · intro types hloaded t
      rw [htypes] at hloaded
      cases hloaded
      simp [hdata]
    · simp [htypes]
    · intro types _
      rw [hother]
      exact Nat.lt_succ_self _
    · intro types _ hclean
      exact absurd ((world.mem_dirtyEntities_spawnEntity other).mpr (Or.inr hother)) hclean
    · intro t data hthere
      rw [getComponent_spawnEntity, hdata] at hthere
      cases hthere
    · intro hmem
      exact absurd ((h.entities other).despawned hmem).2 (by simp [hother])
  · refine (h.entities other).frame ?_ (fun _ => rfl) ?_ (fun _ => id) id (Nat.le_succ _)
    · rw [typesOf_spawnEntity, if_neg hother, Option.or_none]
    · exact fun hmem => (world.mem_dirtyEntities_spawnEntity other).mpr (Or.inl hmem)

theorem coherent_addComponent (h : Coherent env world) {entityId : EntityId}
    (hloaded : world.isLoaded entityId) (componentType : Symbol) (data : Bytes) :
    Coherent env (world.addComponent entityId componentType data) := by
  obtain ⟨types, htypes⟩ := typesOf_of_isLoaded hloaded
  refine ⟨fun other => ?_, nofun, h.nextGrows⟩
  have hat := h.entities other
  by_cases hother : other = entityId
  · subst hother
    have htypes' : (world.addComponent other componentType data).typesOf other =
        some (addType componentType types) := by
      rw [typesOf_addComponent, if_pos rfl, htypes]
      rfl
    constructor
    · intro newTypes hnew t
      rw [htypes'] at hnew
      cases hnew
      rw [getComponent_addComponent]
      have hlisted := hat.listed types htypes
      unfold addType
      by_cases ht : t = componentType <;> split_ifs with hmem <;> simp_all
    · simp [htypes']
    · exact fun _ _ => hat.below types htypes
    · intro _ _ hclean
      exact absurd ((mem_dirtyEntities_addComponent ..).mpr (Or.inr rfl)) hclean
    · intro t newData hthere hclean
      rw [mem_dirtyComponents_addComponent, not_or] at hclean
      have hne : t ≠ componentType := fun ht => hclean.2 (by rw [ht])
      rw [getComponent_addComponent, if_neg fun heq => hne heq.2] at hthere
      exact hat.dataKept t newData hthere hclean.1
    · intro hmem
      rw [(hat.despawned hmem).1] at htypes
      cases htypes
  · refine hat.frame ?_ ?_ ?_ ?_ id (Nat.le_refl _)
    · rw [typesOf_addComponent, if_neg hother]
    · intro t
      rw [getComponent_addComponent, if_neg fun heq => hother heq.1]
    · exact fun hmem => (mem_dirtyEntities_addComponent ..).mpr (Or.inl hmem)
    · exact fun t hmem => (mem_dirtyComponents_addComponent ..).mpr (Or.inl hmem)

theorem coherent_removeComponent (h : Coherent env world) (entityId : EntityId) (componentType : Symbol) :
    Coherent env (world.removeComponent entityId componentType).2 := by
  by_cases hthere : (world.getComponent entityId componentType).isSome
  · have htypesOf := fun other => world.typesOf_removeComponent entityId other componentType
    have hgetComponent := fun other t => world.getComponent_removeComponent entityId other componentType t
    have hentities := fun other => world.mem_dirtyEntities_removeComponent entityId other componentType
    have hcomponents := world.mem_dirtyComponents_removeComponent entityId componentType
    have hdespawned := world.despawned_removeComponent entityId componentType
    have hnext := world.nextEntityId_removeComponent entityId componentType
    have hmeta : (world.removeComponent entityId componentType).2.dirty.metaDirty = true := by
      rw [world.removeComponent_of_isSome hthere]
      rfl
    generalize (world.removeComponent entityId componentType).2 = world' at *
    refine ⟨fun other => ?_, by simp [hmeta], hnext ▸ h.nextGrows⟩
    have hat := h.entities other
    by_cases hother : other = entityId
    · subst hother
      have hdirty : other ∈ world'.dirty.dirtyEntities := (hentities other).mpr (Or.inr ⟨rfl, hthere⟩)
      have htypes' : world'.typesOf other = (world.typesOf other).map (·.filter (· ≠ componentType)) := by
        rw [htypesOf, if_pos ⟨rfl, hthere⟩]
      constructor
      · intro newTypes hnew t
        rw [htypes', Option.map_eq_some_iff] at hnew
        obtain ⟨types, htypes, rfl⟩ := hnew
        rw [List.mem_filter, hat.listed types htypes t, hgetComponent]
        by_cases ht : t = componentType <;> simp [ht]
      · intro hnone t
        rw [htypes', Option.map_eq_none_iff] at hnone
        rw [hgetComponent, hat.unloaded hnone]
        split_ifs <;> rfl
      · intro newTypes hnew
        rw [htypes', Option.map_eq_some_iff] at hnew
        obtain ⟨types, htypes, _⟩ := hnew
        rw [hnext]
        exact hat.below types htypes
      · exact fun _ _ hclean => absurd hdirty hclean
      · intro t data hkept hclean
        rw [hgetComponent] at hkept
        split_ifs at hkept
        exact hat.dataKept t data hkept fun hmem => hclean ((hcomponents _).mpr (Or.inl hmem))
      · intro hmem
        rw [hdespawned] at hmem
        obtain ⟨hnone, hbelow⟩ := hat.despawned hmem
        rw [htypes', hnone, hnext]
        exact ⟨rfl, hbelow⟩
    · refine hat.frame ?_ ?_ ?_ ?_ ?_ (Nat.le_of_eq hnext.symm)
      · rw [htypesOf, if_neg fun heq => hother heq.1]
      · intro t
        rw [hgetComponent, if_neg fun heq => hother heq.1]
      · exact fun hmem => (hentities other).mpr (Or.inl hmem)
      · exact fun t hmem => (hcomponents _).mpr (Or.inl hmem)
      · rw [hdespawned]
        exact id
  · rw [world.removeComponent_of_none (by simpa using hthere)]
    exact h

theorem coherent_despawnEntity (h : Coherent env world) {entityId : EntityId}
    (hloaded : world.isLoaded entityId) : Coherent env (world.despawnEntity entityId) := by
  obtain ⟨types, htypes⟩ := typesOf_of_isLoaded hloaded
  refine ⟨fun other => ?_, nofun, h.nextGrows⟩
  have hat := h.entities other
  by_cases hother : other = entityId
  · subst hother
    have hnone : (world.despawnEntity other).typesOf other = none := by
      rw [typesOf_despawnEntity, if_pos rfl]
    have hdata : ∀ t, (world.despawnEntity other).getComponent other t = none := by
      intro t
      rw [getComponent_despawnEntity, if_pos rfl]
    constructor
    · simp [hnone]
    · exact fun _ => hdata
    · simp [hnone]
    · simp [hnone]
    · simp [hdata]
    · exact fun _ => ⟨hnone, hat.below types htypes⟩
  · refine hat.frame ?_ ?_ id (fun _ => id) ?_ (Nat.le_refl _)
    · rw [typesOf_despawnEntity, if_neg hother]
    · intro t
      rw [getComponent_despawnEntity, if_neg hother]
    · intro hmem
      exact ((mem_despawned_despawnEntity ..).mp hmem).resolve_right hother

theorem storedMetadata_flush_of_kept
    (hkept : world.dirty.metaDirty = false → storedMetadata env = world.metadata) :
    storedMetadata (world.flush env).2 = world.metadata := by
  have hmeta := world.get_flush_metaKey env
  by_cases hdirty : world.dirty.metaDirty
  · rw [if_pos hdirty] at hmeta
    simp [storedMetadata, loadMetadata, hmeta]
  · rw [if_neg hdirty] at hmeta
    rw [← hkept (by simpa using hdirty)]
    simp [storedMetadata, loadMetadata, hmeta]

theorem storedMetadata_flush (h : Coherent env world) :
    storedMetadata (world.flush env).2 = world.metadata := storedMetadata_flush_of_kept h.metaKept

-- Of a loaded entity `flush` leaves everything the session holds in storage.
theorem storedTypes_flush_of_loaded (h : Coherent env world) {e : EntityId} {types : List Symbol}
    (htypes : world.typesOf e = some types) : storedTypes (world.flush env).2 e = some types := by
  have hat := h.entities e
  have hpresent : e ∉ world.dirty.despawned := by
    intro hmem
    rw [(hat.despawned hmem).1] at htypes
    cases htypes
  rw [storedTypes_flush, if_neg hpresent]
  split_ifs with hdirty
  · rw [htypes]
    rfl
  · exact hat.typesKept types htypes hdirty

theorem storedData_flush_of_loaded (h : Coherent env world) {e : EntityId} {t : Symbol} {data : Bytes}
    (hdata : world.getComponent e t = some data) : storedData (world.flush env).2 e t = some data := by
  have hat := h.entities e
  have hpresent : e ∉ world.dirty.despawned := by
    intro hmem
    rw [hat.unloaded (hat.despawned hmem).1] at hdata
    cases hdata
  rw [storedData_flush _ _ hpresent]
  split_ifs with hdirty
  · rw [hdata]
    rfl
  · exact hat.dataKept t data hdata hdirty

theorem storageFits_flush (hstorage : StorageFits env) (h : Coherent env world) :
    StorageFits (world.flush env).2 := by
  -- a stored list comes from a loaded entity or was stored before
  have hsource : ∀ e types, storedTypes (world.flush env).2 e = some types →
      e ∉ world.dirty.despawned ∧ (world.typesOf e = some types ∨ storedTypes env e = some types) := by
    intro e types hstored
    rw [storedTypes_flush] at hstored
    split_ifs at hstored with hdespawned hdirty
    · refine ⟨hdespawned, ?_⟩
      cases hloaded : world.typesOf e with
      | none =>
          rw [hloaded] at hstored
          exact Or.inr hstored
      | some loaded =>
          rw [hloaded] at hstored
          exact Or.inl hstored
    · exact ⟨hdespawned, Or.inr hstored⟩
  constructor
  · intro e types hstored t ht
    obtain ⟨hpresent, hloaded | hbefore⟩ := hsource e types hstored
    · obtain ⟨data, hdata⟩ :=
        Option.isSome_iff_exists.mp (((h.entities e).listed types hloaded t).mp ht)
      rw [storedData_flush_of_loaded h hdata]
      rfl
    · have hthere := hstorage.listed e types hbefore t ht
      rw [storedData_flush _ _ hpresent]
      split_ifs
      · cases world.getComponent e t with
        | none => exact hthere
        | some data => rfl
      · exact hthere
  · intro e types hstored
    rw [storedMetadata_flush h]
    obtain ⟨_, hloaded | hbefore⟩ := hsource e types hstored
    · exact (h.entities e).below types hloaded
    · have hbelow := hstorage.below e types hbefore
      exact Nat.lt_of_lt_of_le hbelow h.nextGrows

theorem coherent_flush (h : Coherent env world) : Coherent (world.flush env).2 (world.flush env).1 := by
  have hmetadata : (world.flush env).1.metadata = world.metadata := by rw [flush_world]
  have hclean : (world.flush env).1.dirty = .new := by rw [flush_world]
  refine ⟨fun e => ?_, fun _ => ?_, ?_⟩
  · have hat := h.entities e
    constructor
    · simpa using hat.listed
    · simpa using hat.unloaded
    · simpa [hmetadata] using hat.below
    · intro types htypes _
      rw [typesOf_flush] at htypes
      exact storedTypes_flush_of_loaded h htypes
    · intro t data hdata _
      rw [getComponent_flush] at hdata
      exact storedData_flush_of_loaded h hdata
    · rw [hclean]
      exact nofun
  · rw [storedMetadata_flush h, hmetadata]
  · rw [storedMetadata_flush h, hmetadata]

end StorageWorld

end Cougr
