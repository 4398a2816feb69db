import Cougr.StorageWorld.Durability
import Cougr.Library.Projection

namespace Cougr

open StorageWorld Transition

namespace StorageWorld

variable {env : Storage} {world world' : StorageWorld}

theorem writeEntity_eq (world : StorageWorld) (env : Storage) (e : EntityId) :
    world.writeEntity env e = (world.typesOf e).elim env fun types => env.set (.entityKey e) types := by
  rw [writeEntity, typesOf]
  cases KeyedList.lookup LoadedEntity.entityId e world.loadedEntities <;> rfl

theorem writeComponent_eq (world : StorageWorld) (env : Storage) (entry : EntityId × Symbol) :
    world.writeComponent env entry =
      if entry.1 ∈ world.dirty.despawned then env
      else (world.getComponent entry.1 entry.2).elim env fun data =>
        env.set (.componentKey entry.1 entry.2) data := by
  rw [writeComponent, getComponent]
  cases KeyedList.lookup LoadedComponent.key entry world.loadedComponents <;> rfl

-- Flush looks up what is marked, and nothing else.
theorem flush_congr (hmetadata : world'.metadata = world.metadata) (hdirty : world'.dirty = world.dirty)
    (htypes : ∀ e ∈ world.dirty.dirtyEntities, world'.typesOf e = world.typesOf e)
    (hdata : ∀ entry ∈ world.dirty.dirtyComponents,
      world'.getComponent entry.1 entry.2 = world.getComponent entry.1 entry.2) :
    (world'.flush env).2 = (world.flush env).2 := by
  have hentity : ∀ store, ∀ e ∈ world.dirty.dirtyEntities,
      world'.writeEntity store e = world.writeEntity store e := by
    intro store e he
    rw [writeEntity_eq, writeEntity_eq, htypes e he]
  have hcomponent : ∀ store, ∀ entry ∈ world.dirty.dirtyComponents,
      world'.writeComponent store entry = world.writeComponent store entry := by
    intro store entry hentry
    rw [writeComponent_eq, writeComponent_eq, hdirty, hdata entry hentry]
  rw [flush_env, flush_env, hdirty, writeMetadata, writeMetadata, hdirty, hmetadata,
    List.foldl_ext _ _ _ hentity, List.foldl_ext _ _ _ hcomponent]

-- What is loaded and has not been changed since is what storage holds.
theorem CoherentAt.of_clean {e : EntityId} (h : CoherentAt env world e) (hclean : Host.Clean world e)
    (hloaded : world.isLoaded e) :
    world.typesOf e = storedTypes env e ∧ ∀ t, world.getComponent e t = storedComponent env e t := by
  obtain ⟨types, htypes⟩ := typesOf_of_isLoaded hloaded
  have hstored := h.typesKept types htypes hclean.types
  refine ⟨htypes.trans hstored.symm, fun t => ?_⟩
  rw [storedComponent, hstored, Option.bind_some]
  have hlisted := h.listed types htypes t
  cases hdata : world.getComponent e t with
  | none =>
      rw [if_neg]
      simp [hlisted, hdata]
  | some data =>
      rw [if_pos (hlisted.mpr (by rw [hdata]; rfl))]
      exact (h.dataKept t data hdata (hclean.data t)).symm

theorem isLoaded_loadEntity {entityId e : EntityId} (h : world.isLoaded e) :
    (world.loadEntity env entityId).2.isLoaded e := by
  rw [isLoaded_eq] at h ⊢
  rw [typesOf_loadEntity, Option.isSome_or, h, Bool.true_or]

theorem isLoaded_loadEntities {ids : List EntityId} {e : EntityId} (h : world.isLoaded e) :
    (world.loadEntities env ids).2.isLoaded e := by
  induction ids generalizing world with
  | nil => exact h
  | cons first rest ih =>
      have hnext : (world.loadEntity env first).2.isLoaded e := isLoaded_loadEntity h
      rw [loadEntities]
      rcases hload : world.loadEntity env first with ⟨answer, next⟩
      rw [hload] at hnext
      cases answer with
      | error error => exact hnext
      | ok => exact ih hnext

theorem loaded_of_loadEntities {ids : List EntityId} (hok : (world.loadEntities env ids).1 = .ok ()) :
    ∀ e ∈ ids, (world.loadEntities env ids).2.isLoaded e := by
  induction ids generalizing world with
  | nil => exact nofun
  | cons first rest ih =>
      have hresult := world.loadEntity_result env first
      have htypes := world.typesOf_loadEntity env first first
      rw [loadEntities] at hok ⊢
      rcases hload : world.loadEntity env first with ⟨answer, next⟩
      rw [hload] at hok hresult htypes
      cases answer with
      | error error => cases hok
      | ok =>
          refine List.forall_mem_cons.mpr ⟨isLoaded_loadEntities ?_, ih hok⟩
          rw [isLoaded_eq, htypes, if_pos rfl, Option.isSome_or, ← isLoaded_eq]
          by_contra hneither
          rw [if_neg (by simpa using hneither)] at hresult
          cases hresult

end StorageWorld

namespace Host

-- Both worlds hold the same of the entity, and it is not one that a load would still bring in.
structure SameAt (world world' : StorageWorld) (e : EntityId) : Prop where
  types : world'.typesOf e = world.typesOf e
  data : ∀ t, world'.getComponent e t = world.getComponent e t
  settled : world.isLoaded e ∨ e ∈ world.dirty.despawned

-- Two sessions on one storage that have made the same changes, whatever each of them has loaded.
structure SameChanges (host host' : Host) : Prop where
  sound : Sound host
  sound' : Sound host'
  env : host'.env = host.env
  metadata : host'.world.metadata = host.world.metadata
  dirty : host'.world.dirty = host.world.dirty
  entities : ∀ e, Clean host.world e ∨ SameAt host.world host'.world e

variable {host host' : Host}

theorem Clean.congr {world world' : StorageWorld} {e : EntityId} (h : Clean world e)
    (hdirty : world'.dirty = world.dirty) : Clean world' e := by
  constructor <;> rw [hdirty]
  · exact h.types
  · exact h.data
  · exact h.present

theorem SameAt.isLoaded_iff {world world' : StorageWorld} {e : EntityId} (h : SameAt world world' e) :
    world'.isLoaded e = world.isLoaded e := by
  rw [isLoaded_eq, isLoaded_eq, h.types]

theorem SameChanges.symm (h : SameChanges host host') : SameChanges host' host where
  sound := h.sound'
  sound' := h.sound
  env := h.env.symm
  metadata := h.metadata.symm
  dirty := h.dirty.symm
  entities e := by
    rcases h.entities e with hclean | hsame
    · exact Or.inl (hclean.congr h.dirty)
    · refine Or.inr ⟨hsame.types.symm, fun t => (hsame.data t).symm, ?_⟩
      rw [hsame.isLoaded_iff, h.dirty]
      exact hsame.settled

-- An entity that both have loaded is the same to both.
theorem SameChanges.of_loaded (h : SameChanges host host') {e : EntityId} (hloaded : host.world.isLoaded e)
    (hloaded' : host'.world.isLoaded e) : host'.world.typesOf e = host.world.typesOf e ∧
      ∀ t, host'.world.getComponent e t = host.world.getComponent e t := by
  rcases h.entities e with hclean | hsame
  · obtain ⟨htypes, hdata⟩ := (h.sound.session.entities e).of_clean hclean hloaded
    obtain ⟨htypes', hdata'⟩ := (h.sound'.session.entities e).of_clean (hclean.congr h.dirty) hloaded'
    rw [htypes, htypes', h.env]
    exact ⟨rfl, fun t => by rw [hdata, hdata', h.env]⟩
  · exact ⟨hsame.types, hsame.data⟩

section Steps

variable (h : SameChanges host host')

include h

-- A load brings in an entity that nobody has changed, or nothing.
theorem SameChanges.load {e : EntityId} (hpresent : e ∉ host.world.dirty.despawned) :
    SameChanges (host.step (.op (.loadEntity e))) host' where
  sound := sound_step host _ h.sound hpresent
  sound' := h.sound'
  env := h.env
  metadata := by simpa [step, StorageWorld.step] using h.metadata
  dirty := by simpa [step, StorageWorld.step] using h.dirty
  entities other := by
    rcases h.entities other with hclean | hsame
    · exact Or.inl (hclean.congr (dirty_loadEntity ..))
    · right
      by_cases hother : other = e
      · subst hother
        have hloaded := hsame.settled.resolve_right hpresent
        have hnothing : (host.world.loadEntity host.env other).2 = host.world := by
          rw [loadEntity, if_pos hloaded]
        simp only [step, StorageWorld.step, hnothing]
        exact hsame
      · have htypes : (host.world.loadEntity host.env e).2.typesOf other = host.world.typesOf other := by
          rw [typesOf_loadEntity, if_neg hother, Option.or_none]
        refine ⟨hsame.types.trans htypes.symm, fun t => ?_, ?_⟩
        · simp only [step, StorageWorld.step]
          rw [getComponent_loadEntity, if_neg fun heq => hother heq.1, Option.or_none]
          exact hsame.data t
        · simp only [step, StorageWorld.step, dirty_loadEntity]
          rw [isLoaded_eq, htypes, ← isLoaded_eq]
          exact hsame.settled

theorem SameChanges.flush : SameChanges (host.step .flush) (host'.step .flush) where
  sound := sound_step host _ h.sound trivial
  sound' := sound_step host' _ h.sound' trivial
  env := by
    simp only [step, h.env]
    apply flush_congr h.metadata h.dirty
    · intro e he
      rcases h.entities e with hclean | hsame
      · exact absurd he hclean.types
      · exact hsame.types
    · rintro ⟨e, t⟩ hentry
      rcases h.entities e with hclean | hsame
      · exact absurd hentry (hclean.data t)
      · exact hsame.data t
  metadata := by simpa [step, flush_world] using h.metadata
  dirty := by simp [step, flush_world]
  entities e := Or.inl (clean_new (by simp [step, flush_world]) e)

theorem SameChanges.loadMetadata : SameChanges (host.step .loadMetadata) (host'.step .loadMetadata) where
  sound := sound_step host _ h.sound trivial
  sound' := sound_step host' _ h.sound' trivial
  env := h.env
  metadata := by simp [step, h.env]
  dirty := rfl
  entities e := Or.inl (clean_new rfl e)

end Steps

-- The calls that are not loads.
def Changes : Call → Prop
  | .op (.loadEntity _) => False
  | .op _ => True
  | .loadMetadata => True
  | .flush => True

instance : DecidablePred Changes
  | .op (.loadEntity _) => inferInstanceAs (Decidable False)
  | .op .spawnEntity => inferInstanceAs (Decidable True)
  | .op (.addComponent _ _ _) => inferInstanceAs (Decidable True)
  | .op (.removeComponent _ _) => inferInstanceAs (Decidable True)
  | .op (.despawnEntity _) => inferInstanceAs (Decidable True)
  | .loadMetadata => inferInstanceAs (Decidable True)
  | .flush => inferInstanceAs (Decidable True)

-- What a call gives back: the id of the new entity, or whether there was a component to remove.
def reply (host : Host) : Call → Option (EntityId ⊕ Bool)
  | .op .spawnEntity => some (.inl host.world.spawnEntity.1)
  | .op (.removeComponent entityId componentType) =>
    some (.inr (host.world.removeComponent entityId componentType).1)
  | _ => none

section Ops

-- An operation that does not touch an entity leaves what is loaded of it.
theorem unchanged_op {host : Host} {op : Op} (hop : Changes (.op op)) {e : EntityId}
    (huntouched : ¬Touches host (.op op) e) :
    (host.world.step host.env op).typesOf e = host.world.typesOf e ∧
      ∀ t, (host.world.step host.env op).getComponent e t = host.world.getComponent e t := by
  cases op with
  | loadEntity entityId => exact hop.elim
  | spawnEntity =>
      refine ⟨?_, fun _ => rfl⟩
      simp only [StorageWorld.step]
      rw [typesOf_spawnEntity, if_neg (Ne.symm huntouched), Option.or_none]
  | addComponent entityId componentType data =>
      have hne : e ≠ entityId := Ne.symm huntouched
      simp only [StorageWorld.step]
      refine ⟨by rw [typesOf_addComponent, if_neg hne], fun t => ?_⟩
      rw [getComponent_addComponent, if_neg fun heq => hne heq.1]
  | removeComponent entityId componentType =>
      have hne : e ≠ entityId := Ne.symm huntouched
      simp only [StorageWorld.step]
      refine ⟨by rw [typesOf_removeComponent, if_neg fun heq => hne heq.1], fun t => ?_⟩
      rw [getComponent_removeComponent, if_neg fun heq => hne heq.1]
  | despawnEntity entityId =>
      have hne : e ≠ entityId := Ne.symm huntouched
      simp only [StorageWorld.step]
      exact ⟨by rw [typesOf_despawnEntity, if_neg hne], fun t => by rw [getComponent_despawnEntity, if_neg hne]⟩

variable (h : SameChanges host host') {op : Op} (hop : Changes (.op op)) (hok : Disciplined host (.op op))
  (hok' : Disciplined host' (.op op))

include h hop hok hok'

-- Writes go to entities that both have loaded, so both mark the same.
theorem SameChanges.marks_op : reply host (.op op) = reply host' (.op op) ∧
    (host'.world.step host'.env op).metadata = (host.world.step host.env op).metadata ∧
    (host'.world.step host'.env op).dirty = (host.world.step host.env op).dirty := by
  cases op with
  | loadEntity entityId => exact hop.elim
  | spawnEntity => simp [reply, StorageWorld.step, spawnEntity, h.metadata, h.dirty]
  | addComponent entityId componentType data =>
      simp [reply, StorageWorld.step, addComponent, h.metadata, h.dirty]
  | removeComponent entityId componentType =>
      have hdata := (h.of_loaded hok hok').2 componentType
      refine ⟨by rw [reply, reply, removeComponent_result, removeComponent_result, hdata], ?_⟩
      simp only [StorageWorld.step]
      by_cases hthere : (host.world.getComponent entityId componentType).isSome
      · rw [removeComponent_of_isSome _ hthere, removeComponent_of_isSome _ (hdata ▸ hthere), h.metadata, h.dirty]
        exact ⟨rfl, rfl⟩
      · rw [Option.not_isSome_iff_eq_none] at hthere
        rw [removeComponent_of_none _ hthere, removeComponent_of_none _ (hdata.trans hthere)]
        exact ⟨h.metadata, h.dirty⟩
  | despawnEntity entityId =>
      simp [reply, StorageWorld.step, despawnEntity, h.metadata, h.dirty]

-- The entity that an operation touches is the same to both afterwards.
theorem SameChanges.touched_op {e : EntityId} (htouched : Touches host (.op op) e) :
    SameAt (host.world.step host.env op) (host'.world.step host'.env op) e := by
  cases op with
  | loadEntity entityId => exact hop.elim
  | spawnEntity =>
      obtain rfl : host.world.metadata.nextEntityId = e := htouched
      have hunloaded : ∀ {other : Host}, Sound other → other.world.metadata = host.world.metadata →
          other.world.typesOf host.world.metadata.nextEntityId = none := by
        intro other hsound hmetadata
        by_contra hsome
        obtain ⟨types, htypes⟩ := Option.ne_none_iff_exists'.mp hsome
        exact absurd ((hsound.session.entities _).below types htypes) (by rw [hmetadata]; exact Nat.lt_irrefl _)
      have hnone := hunloaded h.sound rfl
      have hnone' := hunloaded h.sound' h.metadata
      simp only [StorageWorld.step]
      refine ⟨?_, fun t => ?_, Or.inl ?_⟩
      · rw [typesOf_spawnEntity, typesOf_spawnEntity, hnone, hnone', h.metadata]
      · rw [getComponent_spawnEntity, getComponent_spawnEntity, (h.sound.session.entities _).unloaded hnone,
          (h.sound'.session.entities _).unloaded hnone']
      · rw [isLoaded_eq, typesOf_spawnEntity, if_pos rfl, hnone]
        rfl
  | addComponent entityId componentType data =>
      obtain rfl : entityId = e := htouched
      obtain ⟨htypes, hdata⟩ := h.of_loaded hok hok'
      simp only [StorageWorld.step]
      refine ⟨?_, fun t => ?_, Or.inl ?_⟩
      · rw [typesOf_addComponent, typesOf_addComponent, if_pos rfl, if_pos rfl, htypes]
      · rw [getComponent_addComponent, getComponent_addComponent, hdata]
      · rw [isLoaded_eq, typesOf_addComponent, if_pos rfl]
        rfl
  | removeComponent entityId componentType =>
      obtain rfl : entityId = e := htouched
      obtain ⟨htypes, hdata⟩ := h.of_loaded hok hok'
      simp only [StorageWorld.step]
      refine ⟨?_, fun t => ?_, Or.inl ?_⟩
      · rw [typesOf_removeComponent, typesOf_removeComponent, htypes, hdata]
      · rw [getComponent_removeComponent, getComponent_removeComponent, hdata]
      · rw [isLoaded_eq, typesOf_removeComponent]
        split_ifs
        · rw [Option.isSome_map, ← isLoaded_eq]
          exact hok
        · rw [← isLoaded_eq]
          exact hok
  | despawnEntity entityId =>
      obtain rfl : entityId = e := htouched
      simp only [StorageWorld.step]
      refine ⟨?_, fun t => ?_, Or.inr ((mem_despawned_despawnEntity ..).mpr (Or.inr rfl))⟩
      · rw [typesOf_despawnEntity, typesOf_despawnEntity, if_pos rfl, if_pos rfl]
      · rw [getComponent_despawnEntity, getComponent_despawnEntity, if_pos rfl, if_pos rfl]

theorem SameChanges.change : SameChanges (host.step (.op op)) (host'.step (.op op)) where
  sound := sound_step host _ h.sound hok
  sound' := sound_step host' _ h.sound' hok'
  env := h.env
  metadata := (h.marks_op hop hok hok').2.1
  dirty := (h.marks_op hop hok hok').2.2
  entities e := by
    by_cases htouched : Touches host (.op op) e
    · exact Or.inr (h.touched_op hop hok hok' htouched)
    · have huntouched : ¬Touches host' (.op op) e := by
        cases op with
        | spawnEntity => simpa [Touches, h.metadata] using htouched
        | _ => exact htouched
      obtain ⟨htypes, hdata⟩ := unchanged_op hop htouched
      obtain ⟨htypes', hdata'⟩ := unchanged_op hop huntouched
      rcases h.entities e with hclean | hsame
      · exact Or.inl (clean_op htouched hclean)
      · refine Or.inr ⟨?_, fun t => ?_, ?_⟩
        · exact htypes'.trans (hsame.types.trans htypes.symm)
        · exact (hdata' t).trans ((hsame.data t).trans (hdata t).symm)
        · refine hsame.settled.imp (fun hloaded => ?_) (despawned_step _ op)
          simp only [step]
          rwa [isLoaded_eq, htypes, ← isLoaded_eq]

end Ops

theorem SameChanges.call (h : SameChanges host host') {call : Call} (hcall : Changes call)
    (hok : Disciplined host call) (hok' : Disciplined host' call) :
    reply host call = reply host' call ∧ SameChanges (host.step call) (host'.step call) := by
  cases call with
  | loadMetadata => exact ⟨rfl, h.loadMetadata⟩
  | flush => exact ⟨rfl, h.flush⟩
  | op op => exact ⟨(h.marks_op hcall hok hok').1, h.change hcall hok hok'⟩

theorem SameChanges.other_load (h : SameChanges host host') {call : Call} (hcall : ¬Changes call)
    (hok' : Disciplined host' call) : SameChanges host (host'.step call) := by
  cases call with
  | loadMetadata => exact absurd trivial hcall
  | flush => exact absurd trivial hcall
  | op op =>
      cases op with
      | loadEntity entityId => exact (h.symm.load hok').symm
      | _ => exact absurd trivial hcall

-- Whether an entity can be loaded does not depend on what was loaded before.
theorem SameChanges.result_loadEntity (h : SameChanges host host') (e : EntityId) :
    (host'.world.loadEntity host'.env e).1 = (host.world.loadEntity host.env e).1 := by
  rw [loadEntity_result, loadEntity_result, h.env]
  rcases h.entities e with hclean | hsame
  · have hstored : ∀ {other : Host}, Sound other → other.env = host.env → Clean other.world e →
      other.world.isLoaded e →
        (storedTypes host.env e).isSome := by
      intro other hsound henv hclean hloaded
      rw [← henv, ← ((hsound.session.entities e).of_clean hclean hloaded).1, ← isLoaded_eq]
      exact hloaded
    simp only [or_iff_right_of_imp (hstored h.sound rfl hclean),
      or_iff_right_of_imp (hstored h.sound' h.env (hclean.congr h.dirty))]
  · rw [hsame.isLoaded_iff]

theorem SameChanges.loadEntities (h : SameChanges host host') (ids : List EntityId)
    (hpresent : ∀ e ∈ ids, e ∉ host.world.dirty.despawned) :
    (host'.world.loadEntities host'.env ids).1 = (host.world.loadEntities host.env ids).1 ∧
      SameChanges ⟨host.env, (host.world.loadEntities host.env ids).2⟩
        ⟨host'.env, (host'.world.loadEntities host'.env ids).2⟩ := by
  induction ids generalizing host host' with
  | nil => exact ⟨rfl, h⟩
  | cons e ids ih =>
      obtain ⟨he, hrest⟩ := List.forall_mem_cons.mp hpresent
      have hresult := h.result_loadEntity e
      have hloaded := (h.load he).symm.load (by rw [h.dirty]; simpa [step, StorageWorld.step] using he)
      have hrest' := ih hloaded.symm (by simpa [step, StorageWorld.step] using hrest)
      simp only [step, StorageWorld.step] at hloaded hrest'
      simp only [StorageWorld.loadEntities]
      rcases hleft : host.world.loadEntity host.env e with ⟨answer, world⟩
      rcases hright : host'.world.loadEntity host'.env e with ⟨answer', world'⟩
      rw [hleft, hright] at hresult hloaded hrest'
      obtain rfl : answer' = answer := hresult
      cases answer' with
      | error error => exact ⟨rfl, hloaded.symm⟩
      | ok => exact hrest'

-- Two sessions that make the same changes are answered the same and leave the same storage, wherever each of
-- them loads what it needs; and each finds in the other's place what it would find in its own.
theorem loads_placed_anywhere (calls calls' : List Call) (hcalls : StepsMeet step Disciplined empty calls)
    (hcalls' : StepsMeet step Disciplined empty calls') (hsame : calls.filter Changes = calls'.filter Changes) :
    let host := run step empty calls
    let host' := run step empty calls'
    answersTo step reply Changes empty calls = answersTo step reply Changes empty calls' ∧
      host'.env = host.env ∧ host'.world.metadata = host.world.metadata ∧ host'.world.dirty = host.world.dirty ∧
      ∀ ids : List EntityId, (∀ e ∈ ids, e ∉ host.world.dirty.despawned) →
        (host'.world.loadEntities host'.env ids).1 = (host.world.loadEntities host.env ids).1 ∧
        ((host.world.loadEntities host.env ids).1 = .ok () → ∀ e ∈ ids, ∀ t,
          (host'.world.loadEntities host'.env ids).2.getComponent e t =
            (host.world.loadEntities host.env ids).2.getComponent e t) := by
  have hstart : SameChanges empty empty :=
    ⟨sound_empty, sound_empty, rfl, rfl, rfl, fun e => Or.inl (clean_new rfl e)⟩
  obtain ⟨hend, hanswers⟩ := run_same_filter (fun _ _ h => h.symm)
    (fun _ _ _ hcall hok h => h.other_load hcall hok) (fun _ _ _ hcall hok hok' h => h.call hcall hok hok')
    hstart calls calls' hcalls hcalls' hsame
  refine ⟨hanswers, hend.env, hend.metadata, hend.dirty, fun ids hpresent => ?_⟩
  obtain ⟨hresult, hloaded⟩ := hend.loadEntities ids hpresent
  refine ⟨hresult, fun hok e he t => ?_⟩
  have hthere := loaded_of_loadEntities hok e he
  have hthere' := loaded_of_loadEntities (hresult.trans hok) e he
  exact (hloaded.of_loaded hthere hthere').2 t

-- The second session loads both entities when it opens, and one of them again.
def prefetched : List Call :=
  [.op .spawnEntity, .op (.addComponent 1 pos [1]), .op .spawnEntity, .op (.addComponent 2 pos [2]), .flush,
    .loadMetadata, .op (.loadEntity 2), .op (.loadEntity 1), .op (.despawnEntity 2), .op (.loadEntity 1), .flush]

theorem prefetched_same_storage :
    (run step empty prefetched).env = (run step empty (twoSessions ++ [Call.flush])).env :=
  (loads_placed_anywhere (twoSessions ++ [Call.flush]) prefetched (by decide) (by decide) (by decide)).2.1

end Host

end Cougr
