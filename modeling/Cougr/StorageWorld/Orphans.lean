import Cougr.StorageWorld.Undisciplined

namespace Cougr

open StorageWorld Transition

namespace Host

-- A component entry is in storage exactly when the entity is and its list names the type.
def NoOrphansOf (env : Storage) (e : EntityId) : Prop :=
  ∀ t, (storedData env e t).isSome ↔ ∃ types, storedTypes env e = some types ∧ t ∈ types

def NoOrphans (env : Storage) : Prop := ∀ e, NoOrphansOf env e

theorem noOrphansOf_iff {env : Storage} {e : EntityId} :
    NoOrphansOf env e ↔ ∀ t, (storedData env e t).isSome ↔ t ∈ (storedTypes env e).getD [] := by
  unfold NoOrphansOf
  cases storedTypes env e <;> simp

-- What a session keeps between its flushes, whatever ids its calls name.
structure Settled (world : StorageWorld) : Prop where
  marked : ∀ e t, (e, t) ∈ world.dirty.dirtyComponents → e ∈ world.dirty.dirtyEntities
  present : ∀ e ∈ world.dirty.dirtyEntities, world.typesOf e = none → e ∈ world.dirty.despawned
  listed : ∀ e types, world.typesOf e = some types → ∀ t, t ∈ types ↔ (world.getComponent e t).isSome
  together : Together world

section Session

variable {env : Storage} {world : StorageWorld}

theorem settled_loadMetadata (env : Storage) : Settled (loadMetadata env) where
  marked _ _ := nofun
  present _ := nofun
  listed _ _ := nofun
  together _ _ _ := rfl

theorem settled_loadEntity (hstorage : NoOrphans env) (h : Settled world) (entityId : EntityId) :
    Settled (world.loadEntity env entityId).2 := by
  refine ⟨by simpa using h.marked, ?_, ?_, together_op env h.together (.loadEntity entityId)⟩
  · intro e he hnone
    rw [dirty_loadEntity] at he ⊢
    rw [typesOf_loadEntity, Option.or_eq_none_iff] at hnone
    exact h.present e he hnone.1
  · intro e types htypes t
    rw [typesOf_loadEntity] at htypes
    rw [getComponent_loadEntity, isLoaded_eq]
    cases hloaded : world.typesOf e with
    | some old =>
        rw [hloaded, Option.some_or] at htypes
        cases htypes
        have hskip : ¬(e = entityId ∧ ¬(world.typesOf entityId).isSome) := by
          rintro ⟨rfl, hmissing⟩
          simp [hloaded] at hmissing
        rw [if_neg hskip, Option.or_none]
        exact h.listed e types hloaded t
    | none =>
        rw [hloaded, Option.none_or] at htypes
        split_ifs at htypes with he
        subst he
        have hstored := hstorage e t
        rw [h.together e hloaded t, Option.none_or, if_pos ⟨rfl, by simp [hloaded]⟩, storedComponent, htypes,
          Option.bind_some]
        rw [htypes] at hstored
        by_cases ht : t ∈ types
        · simpa [ht] using hstored
        · simp [ht]

theorem settled_spawnEntity (h : Settled world) : Settled world.spawnEntity.2 := by
  refine ⟨?_, ?_, ?_, together_op KeyStore.empty h.together .spawnEntity⟩
  · intro e t hmarked
    exact (mem_dirtyEntities_spawnEntity ..).mpr (Or.inl (h.marked e t hmarked))
  · intro e he hnone
    rw [typesOf_spawnEntity, Option.or_eq_none_iff] at hnone
    rcases (mem_dirtyEntities_spawnEntity ..).mp he with hbefore | hnew
    · exact h.present e hbefore hnone.1
    · simp [hnew] at hnone
  · intro e types htypes t
    rw [typesOf_spawnEntity] at htypes
    rw [getComponent_spawnEntity]
    cases hloaded : world.typesOf e with
    | some old =>
        rw [hloaded, Option.some_or] at htypes
        cases htypes
        exact h.listed e types hloaded t
    | none =>
        rw [hloaded, Option.none_or] at htypes
        split_ifs at htypes
        cases htypes
        simp [h.together e hloaded t]

theorem settled_addComponent (h : Settled world) (entityId : EntityId) (componentType : Symbol) (data : Bytes) :
    Settled (world.addComponent entityId componentType data) := by
  refine ⟨?_, ?_, ?_, together_op KeyStore.empty h.together (.addComponent entityId componentType data)⟩
  · intro e t hmarked
    apply (mem_dirtyEntities_addComponent ..).mpr
    rcases (mem_dirtyComponents_addComponent ..).mp hmarked with hbefore | hnew
    · exact Or.inl (h.marked e t hbefore)
    · exact Or.inr (Prod.ext_iff.mp hnew).1
  · intro e he hnone
    rw [typesOf_addComponent] at hnone
    split_ifs at hnone with hother
    exact h.present e (((mem_dirtyEntities_addComponent ..).mp he).resolve_right hother) hnone
  · intro e types htypes t
    rw [typesOf_addComponent] at htypes
    rw [getComponent_addComponent]
    split_ifs at htypes with he
    · cases htypes
      subst he
      -- the list of an entity that is not loaded starts empty, as its components do
      have hlisted : t ∈ (world.typesOf e).getD [] ↔ (world.getComponent e t).isSome := by
        cases hloaded : world.typesOf e with
        | some old => exact h.listed e old hloaded t
        | none => simp [h.together e hloaded t]
      rw [mem_addType, hlisted]
      by_cases ht : t = componentType <;> simp [ht]
    · rw [if_neg fun heq => he heq.1]
      exact h.listed e types htypes t

theorem settled_removeComponent (h : Settled world) (entityId : EntityId) (componentType : Symbol) :
    Settled (world.removeComponent entityId componentType).2 := by
  refine ⟨?_, ?_, ?_, together_op KeyStore.empty h.together (.removeComponent entityId componentType)⟩
  · intro e t hmarked
    apply (mem_dirtyEntities_removeComponent ..).mpr
    rcases (mem_dirtyComponents_removeComponent ..).mp hmarked with hbefore | ⟨hnew, hthere⟩
    · exact Or.inl (h.marked e t hbefore)
    · exact Or.inr ⟨(Prod.ext_iff.mp hnew).1, hthere⟩
  · intro e he hnone
    rw [despawned_removeComponent]
    rw [typesOf_removeComponent] at hnone
    rcases (mem_dirtyEntities_removeComponent ..).mp he with hbefore | ⟨rfl, hthere⟩
    · apply h.present e hbefore
      split_ifs at hnone with heq
      · rw [heq.1]
        exact Option.map_eq_none_iff.mp hnone
      · exact hnone
    · rw [if_pos ⟨rfl, hthere⟩, Option.map_eq_none_iff] at hnone
      simp [h.together e hnone componentType] at hthere
  · intro e types htypes t
    rw [typesOf_removeComponent] at htypes
    rw [getComponent_removeComponent]
    split_ifs at htypes with heq
    · obtain ⟨rfl, _⟩ := heq
      obtain ⟨old, hold, rfl⟩ := Option.map_eq_some_iff.mp htypes
      rw [List.mem_filter, h.listed e old hold t]
      by_cases ht : t = componentType <;> simp [ht]
    · rw [h.listed e types htypes t]
      by_cases hsame : e = entityId ∧ t = componentType
      · have hnone : ¬(world.getComponent entityId componentType).isSome :=
          fun hthere => heq ⟨hsame.1, hthere⟩
        rw [if_pos hsame, hsame.1, hsame.2]
        simpa using hnone
      · rw [if_neg hsame]

theorem settled_despawnEntity (h : Settled world) (entityId : EntityId) :
    Settled (world.despawnEntity entityId) := by
  refine ⟨h.marked, ?_, ?_, together_op KeyStore.empty h.together (.despawnEntity entityId)⟩
  · intro e he hnone
    rw [typesOf_despawnEntity] at hnone
    apply (mem_despawned_despawnEntity ..).mpr
    split_ifs at hnone with heq
    · exact Or.inr heq
    · exact Or.inl (h.present e he hnone)
  · intro e types htypes t
    rw [typesOf_despawnEntity] at htypes
    rw [getComponent_despawnEntity]
    split_ifs at htypes with heq
    rw [if_neg heq]
    exact h.listed e types htypes t

theorem settled_step {host : Host} (hstorage : NoOrphans host.env) (h : Settled host.world) (call : Call) :
    Settled (host.step call).world := by
  cases call with
  | loadMetadata => exact settled_loadMetadata host.env
  | flush =>
      refine ⟨?_, ?_, by simpa [step] using h.listed, together_step host .flush h.together⟩
      · simp only [step, flush_world]
        intro e t hmarked
        cases hmarked
      · simp only [step, flush_world]
        intro e hdirty
        cases hdirty
  | op op =>
      cases op with
      | loadEntity e => exact settled_loadEntity hstorage h e
      | spawnEntity => exact settled_spawnEntity h
      | addComponent e t d => exact settled_addComponent h e t d
      | removeComponent e t => exact settled_removeComponent h e t
      | despawnEntity e => exact settled_despawnEntity h e

end Session

section Flush

variable (env : Storage) (world : StorageWorld)

-- Of a loaded entity whose list is to be written, the list still names every component that is stored; and
-- what it names is marked as well or stored already, unless the entity is to be erased.
def WritesWhole (e : EntityId) : Prop :=
  ∀ types ∈ world.typesOf e, (∀ t ∈ (storedTypes env e).getD [], t ∈ types) ∧
    (e ∉ world.dirty.despawned →
      ∀ t ∈ types, (e, t) ∈ world.dirty.dirtyComponents ∨ (storedData env e t).isSome)

instance decidableWritesWhole (e : EntityId) : Decidable (WritesWhole env world e) :=
  inferInstanceAs (Decidable (∀ types ∈ world.typesOf e, _))

variable {env : Storage} {world : StorageWorld}

-- An erased entity leaves the components behind that its last list does not name.
theorem noOrphansOf_flush_of_despawned {e : EntityId} (hstorage : NoOrphansOf env e)
    (hdespawned : e ∈ world.dirty.despawned) :
    NoOrphansOf (world.flush env).2 e ↔ (e ∈ world.dirty.dirtyEntities → WritesWhole env world e) := by
  have hstored := noOrphansOf_iff.mp hstorage
  have hnone : storedTypes (world.flush env).2 e = none := by rw [storedTypes_flush, if_pos hdespawned]
  have herased : NoOrphansOf (world.flush env).2 e ↔
      ∀ t ∈ (storedTypes env e).getD [], t ∈ (world.writtenTypes env e).getD [] := by
    rw [noOrphansOf_iff, hnone]
    apply forall_congr'
    intro t
    rw [storedData_flush_of_despawned world env hdespawned, hstored]
    simp
  rw [herased, writtenTypes]
  by_cases hdirty : e ∈ world.dirty.dirtyEntities
  · cases hloaded : world.typesOf e with
    | none => simp [hdirty, WritesWhole, hloaded]
    | some types => simp [hdirty, WritesWhole, hloaded, hdespawned]
  · simp [hdirty]

-- A written entity leaves the components behind that its new list does not name, and lacks the ones that
-- nobody writes.
theorem noOrphansOf_flush_of_present {e : EntityId} (hstorage : NoOrphansOf env e) (h : Settled world)
    (hpresent : e ∉ world.dirty.despawned) :
    NoOrphansOf (world.flush env).2 e ↔ (e ∈ world.dirty.dirtyEntities → WritesWhole env world e) := by
  have hstored := noOrphansOf_iff.mp hstorage
  simp only [noOrphansOf_iff, storedTypes_flush, if_neg hpresent, storedData_flush _ _ hpresent]
  by_cases hdirty : e ∈ world.dirty.dirtyEntities
  · simp only [hdirty, if_true, true_imp_iff]
    cases hloaded : world.typesOf e with
    | none => exact absurd (h.present e hdirty hloaded) hpresent
    | some types =>
        have hlisted := h.listed e types hloaded
        simp only [WritesWhole, hloaded, Option.some_or, Option.getD_some, Option.mem_some_iff, forall_eq',
          hpresent, not_false_eq_true, true_imp_iff]
        constructor
        · intro hafter
          refine ⟨fun t ht => ?_, fun t ht => ?_⟩
          · apply (hafter t).mp
            have hdata := (hstored t).mpr ht
            split_ifs
            · rw [Option.isSome_or, hdata, Bool.or_true]
            · exact hdata
          · by_contra hneither
            rw [not_or] at hneither
            have hdata := (hafter t).mpr ht
            rw [if_neg hneither.1] at hdata
            exact hneither.2 hdata
        · rintro ⟨hkept, hwritten⟩ t
          constructor
          · intro hdata
            split_ifs at hdata
            · rw [Option.isSome_or, Bool.or_eq_true] at hdata
              rcases hdata with hmemory | hbefore
              · exact (hlisted t).mpr hmemory
              · exact hkept t ((hstored t).mp hbefore)
            · exact hkept t ((hstored t).mp hdata)
          · intro ht
            have hmemory := (hlisted t).mp ht
            split_ifs with hmarked
            · rw [Option.isSome_or, hmemory, Bool.true_or]
            · exact (hwritten t ht).resolve_left hmarked
  · have hunmarked : ∀ t, (e, t) ∉ world.dirty.dirtyComponents :=
      fun t hmarked => hdirty (h.marked e t hmarked)
    simpa [hdirty, hunmarked] using hstored

theorem noOrphans_flush_iff (hstorage : NoOrphans env) (h : Settled world) :
    NoOrphans (world.flush env).2 ↔ ∀ e ∈ world.dirty.dirtyEntities, WritesWhole env world e := by
  apply forall_congr'
  intro e
  by_cases hdespawned : e ∈ world.dirty.despawned
  · exact noOrphansOf_flush_of_despawned (hstorage e) hdespawned
  · exact noOrphansOf_flush_of_present (hstorage e) h hdespawned

def FlushesWhole (host : Host) : Call → Prop
  | .flush => ∀ e ∈ host.world.dirty.dirtyEntities, WritesWhole host.env host.world e
  | .op _ => True
  | .loadMetadata => True

instance (host : Host) : (call : Call) → Decidable (FlushesWhole host call)
  | .flush =>
    have : DecidablePred (WritesWhole host.env host.world) := decidableWritesWhole host.env host.world
    inferInstanceAs (Decidable (∀ e ∈ host.world.dirty.dirtyEntities, _))
  | .op _ => inferInstanceAs (Decidable True)
  | .loadMetadata => inferInstanceAs (Decidable True)

-- After each flush of the run storage is free of orphans.
def CleanAfterFlushes (calls : List Call) : Prop :=
  ∀ past rest, calls = past ++ .flush :: rest → NoOrphans (run step empty (past ++ [.flush])).env

theorem cleanAfterFlushes_iff (calls : List Call) : CleanAfterFlushes calls ↔
    StepsMeet step (fun host call => call = .flush → NoOrphans (host.step call).env) empty calls := by
  rw [stepsMeet_iff_forall_cut]
  constructor
  · rintro hflushes past call rest hsplit rfl
    have hafter := hflushes past rest hsplit
    rwa [run_concat] at hafter
  · intro hsteps past rest hsplit
    rw [run_concat]
    exact hsteps past .flush rest hsplit rfl

-- The first flush that does not write whole is the first to leave an orphan.
theorem stepsMeet_noOrphans_iff (calls : List Call) :
    StepsMeet step (fun host call => call = .flush → NoOrphans (host.step call).env) empty calls ↔
      StepsMeet step FlushesWhole empty calls := by
  have hall : StepsMeet step (fun _ _ => True) empty calls := stepsMeet_of_forall (fun _ _ => trivial) empty calls
  refine stepsMeet_congr (fun host => NoOrphans host.env ∧ Settled host.world) ?_ ?_ ?_ calls hall
  · rintro host call ⟨hstorage, hsettled⟩ -
    cases call with
    | flush =>
        have hiff := noOrphans_flush_iff hstorage hsettled
        exact ⟨fun hflush => hiff.mp (hflush rfl), fun hwhole _ => hiff.mpr hwhole⟩
    | op op => simp [FlushesWhole]
    | loadMetadata => simp [FlushesWhole]
  · rintro host call ⟨hstorage, hsettled⟩ - hflush
    refine ⟨?_, settled_step hstorage hsettled call⟩
    cases call with
    | flush => exact hflush rfl
    | op op => exact hstorage
    | loadMetadata => exact hstorage
  · exact ⟨fun e t => by simp [empty, storedData, storedTypes, KeyStore.empty, KeyStore.get],
      settled_loadMetadata _⟩

-- So a run stays clean exactly when none of its flushes takes a type off a stored list whose component is
-- stored.
theorem noOrphans_iff (calls : List Call) :
    CleanAfterFlushes calls ↔ StepsMeet step FlushesWhole empty calls :=
  (cleanAfterFlushes_iff calls).trans (stepsMeet_noOrphans_iff calls)

-- A component is removed after it was stored; no flush removes its entry.
def removedAfterFlush : List Call :=
  [.op .spawnEntity, .op (.addComponent 1 pos [1]), .flush, .op (.removeComponent 1 pos)]

theorem removed_component_left_behind :
    StepsMeet step Disciplined empty (removedAfterFlush ++ [.flush]) ∧
      ¬NoOrphans (run step empty (removedAfterFlush ++ [.flush])).env := by
  refine ⟨by decide, fun hnone => ?_⟩
  have hentry := noOrphansOf_iff.mp (hnone 1) pos
  revert hentry
  decide

-- The flush takes no stored component off a list.
def KeepsStored (host : Host) : Call → Prop
  | .flush => ∀ e ∈ host.world.dirty.dirtyEntities, ∀ types ∈ host.world.typesOf e,
      ∀ t ∈ (storedTypes host.env e).getD [], t ∈ types
  | .op _ => True
  | .loadMetadata => True

-- As sessions are meant to use a world, only the removal of a stored component leaves one behind.
theorem cleanAfterFlushes_iff_of_disciplined (calls : List Call)
    (hcalls : StepsMeet step Disciplined empty calls) :
    CleanAfterFlushes calls ↔ StepsMeet step KeepsStored empty calls := by
  rw [cleanAfterFlushes_iff, stepsMeet_noOrphans_iff]
  apply stepsMeet_congr Sound ?_
    (fun host call h hcall _ => sound_step host call h hcall) sound_empty calls hcalls
  intro host call hsound _
  cases call with
  | loadMetadata => exact Iff.rfl
  | op op => exact Iff.rfl
  | flush =>
      constructor
      · intro hwhole e he types htypes
        exact (hwhole e he types htypes).1
      · intro hkept e he types htypes
        refine ⟨hkept e he types htypes, fun _ t ht => ?_⟩
        have hat := hsound.session.entities e
        obtain ⟨data, hdata⟩ := Option.isSome_iff_exists.mp ((hat.listed types htypes t).mp ht)
        by_cases hmarked : (e, t) ∈ host.world.dirty.dirtyComponents
        · exact Or.inl hmarked
        · rw [hat.dataKept t data hdata hmarked]
          exact Or.inr rfl

end Flush

end Host

end Cougr
