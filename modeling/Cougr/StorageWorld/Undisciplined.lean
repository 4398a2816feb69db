import Cougr.StorageWorld.Durability

namespace Cougr

open StorageWorld Transition

namespace Host

-- Components are loaded with their entity, whatever ids the calls name.
def Together (world : StorageWorld) : Prop :=
  ∀ e, world.typesOf e = none → ∀ t, world.getComponent e t = none

theorem together_op (env : Storage) {world : StorageWorld} (h : Together world) (op : Op) :
    Together (world.step env op) := by
  intro e hnone t
  cases op with
  | loadEntity entityId =>
      simp only [StorageWorld.step] at hnone ⊢
      rw [typesOf_loadEntity, Option.or_eq_none_iff] at hnone
      obtain ⟨hloaded, hstored⟩ := hnone
      rw [getComponent_loadEntity, h e hloaded]
      by_cases heq : e = entityId
      · subst heq
        rw [if_pos rfl] at hstored
        simp [storedComponent, hstored]
      · simp [heq]
  | spawnEntity =>
      simp only [StorageWorld.step] at hnone ⊢
      rw [typesOf_spawnEntity, Option.or_eq_none_iff] at hnone
      exact h e hnone.1 t
  | addComponent entityId componentType data =>
      simp only [StorageWorld.step] at hnone ⊢
      rw [typesOf_addComponent] at hnone
      split_ifs at hnone with heq
      rw [getComponent_addComponent, if_neg fun h => heq h.1]
      exact h e hnone t
  | removeComponent entityId componentType =>
      simp only [StorageWorld.step] at hnone ⊢
      have hloaded : world.typesOf e = none := by
        rw [typesOf_removeComponent] at hnone
        split_ifs at hnone with heq
        · rw [heq.1]
          exact Option.map_eq_none_iff.mp hnone
        · exact hnone
      rw [getComponent_removeComponent, h e hloaded]
      split_ifs <;> rfl
  | despawnEntity entityId =>
      simp only [StorageWorld.step] at hnone ⊢
      rw [getComponent_despawnEntity]
      rw [typesOf_despawnEntity] at hnone
      split_ifs at hnone ⊢ with heq
      · rfl
      · exact h e hnone t

theorem together_step (host : Host) (call : Call) (h : Together host.world) :
    Together (host.step call).world := by
  cases call with
  | loadMetadata => exact fun _ _ _ => rfl
  | op op => exact together_op host.env h op
  | flush =>
      intro e hnone t
      simp only [step, typesOf_flush, getComponent_flush] at hnone ⊢
      exact h e hnone t

theorem together_run (calls : List Call) : Together (run step empty calls).world :=
  run_invariant_of_step (fun host : Host => Together host.world) together_step (fun _ _ _ => rfl) calls

theorem mem_addType (t other : Symbol) (types : List Symbol) :
    other ∈ addType t types ↔ other ∈ types ∨ other = t := by
  unfold addType
  split_ifs with h
  · exact ⟨Or.inl, fun hor => hor.elim id fun heq => heq ▸ h⟩
  · simp

-- The world shows the entity with the component as added and with `rest` for the others.
def ShowsAdded (world : StorageWorld) (e : EntityId) (t : Symbol) (d : Bytes) (rest : Symbol → Option Bytes) :
    Prop :=
  world.getComponent e t = some d ∧ ∀ other, other ≠ t → world.getComponent e other = rest other

theorem showsAdded_addComponent (world : StorageWorld) (e : EntityId) (t : Symbol) (d : Bytes) :
    ShowsAdded (world.addComponent e t d) e t d (world.getComponent e) := by
  refine ⟨?_, fun other hother => ?_⟩
  · rw [getComponent_addComponent, if_pos ⟨rfl, rfl⟩]
  · rw [getComponent_addComponent, if_neg fun heq => hother heq.2]

-- What `flush` writes after an addition: the list the session has of the entity, the new
-- data, and no other data than is stored already.
theorem showsAdded_reload (env : Storage) {world : StorageWorld} {e : EntityId} (t : Symbol) (d : Bytes)
    (hpresent : e ∉ world.dirty.despawned)
    (hsame : ∀ other data, world.getComponent e other = some data → storedData env e other = some data) :
    (reload ((world.addComponent e t d).flush env).2 e).1 = .ok () ∧
      ShowsAdded (reload ((world.addComponent e t d).flush env).2 e).2 e t d fun other =>
        if other ∈ (world.typesOf e).getD [] then storedData env e other else none := by
  have hpresent' : e ∉ (world.addComponent e t d).dirty.despawned := hpresent
  have htypes : storedTypes ((world.addComponent e t d).flush env).2 e =
      some (addType t ((world.typesOf e).getD [])) := by
    have hdirty : e ∈ (world.addComponent e t d).dirty.dirtyEntities :=
      (mem_dirtyEntities_addComponent ..).mpr (Or.inr rfl)
    rw [storedTypes_flush, if_neg hpresent', if_pos hdirty, typesOf_addComponent, if_pos rfl]
    rfl
  have hnew : storedData ((world.addComponent e t d).flush env).2 e t = some d := by
    have hdirty : (e, t) ∈ (world.addComponent e t d).dirty.dirtyComponents :=
      (mem_dirtyComponents_addComponent ..).mpr (Or.inr rfl)
    rw [storedData_flush _ _ hpresent', if_pos hdirty, getComponent_addComponent, if_pos ⟨rfl, rfl⟩]
    rfl
  have hold : ∀ other, other ≠ t →
      storedData ((world.addComponent e t d).flush env).2 e other = storedData env e other := by
    intro other hother
    rw [storedData_flush _ _ hpresent']
    split_ifs
    · rw [getComponent_addComponent, if_neg fun heq => hother heq.2]
      cases hdata : world.getComponent e other with
      | none => rfl
      | some data => rw [hsame other data hdata, Option.some_or]
    · rfl
  refine ⟨?_, ?_, fun other hother => ?_⟩
  · rw [reload_result, htypes]
    rfl
  · rw [getComponent_reload, storedComponent, htypes, Option.bind_some, hnew,
      if_pos ((mem_addType ..).mpr (Or.inr rfl))]
  · rw [getComponent_reload, storedComponent, htypes, Option.bind_some, hold other hother]
    have hlisted : other ∈ addType t ((world.typesOf e).getD []) ↔ other ∈ (world.typesOf e).getD [] := by
      rw [mem_addType]
      exact ⟨fun h => h.resolve_right hother, Or.inl⟩
    simp only [hlisted]

-- Loaded first, an entity keeps its other components when one is added. Not loaded, it keeps
-- the new one only, and loading it afterwards does nothing.
theorem add_to_stored_entity (calls : List Call) (e : EntityId) (t : Symbol) (d : Bytes) :
    let host := run step empty calls
    (storedTypes host.env e).isSome → host.world.isLoaded e = false → e ∉ host.world.dirty.despawned →
    let old := (reload host.env e).2.getComponent e
    let loaded := (host.world.loadEntity host.env e).2.addComponent e t d
    let unloaded := host.world.addComponent e t d
    ((host.world.loadEntity host.env e).1 = .ok () ∧ ShowsAdded loaded e t d old ∧
      (reload (loaded.flush host.env).2 e).1 = .ok () ∧
      ShowsAdded (reload (loaded.flush host.env).2 e).2 e t d old) ∧
    unloaded.loadEntity host.env e = (.ok (), unloaded) ∧ ShowsAdded unloaded e t d (fun _ => none) ∧
      (reload (unloaded.flush host.env).2 e).1 = .ok () ∧
      ShowsAdded (reload (unloaded.flush host.env).2 e).2 e t d (fun _ => none) := by
  intro host hstored hunloaded hpresent old loaded unloaded
  have htypes : host.world.typesOf e = none := by
    rw [isLoaded_eq] at hunloaded
    simpa using hunloaded
  have hnone : host.world.getComponent e = fun _ => none := funext (together_run calls e htypes)
  obtain ⟨types, hlist⟩ := Option.isSome_iff_exists.mp hstored
  have hold : old = fun other => if other ∈ types then storedData host.env e other else none := by
    funext other
    rw [show old other = _ from getComponent_reload .., storedComponent, hlist, Option.bind_some]
  -- the world once the entity is loaded
  have hloadedTypes : (host.world.loadEntity host.env e).2.typesOf e = some types := by
    rw [typesOf_loadEntity, htypes, if_pos rfl, hlist]
    rfl
  have hloadedData : (host.world.loadEntity host.env e).2.getComponent e = old := by
    funext other
    rw [getComponent_loadEntity, hnone, if_pos ⟨rfl, by simp [hunloaded]⟩]
    exact (getComponent_reload ..).symm
  have hloadedPresent : e ∉ (host.world.loadEntity host.env e).2.dirty.despawned := by
    rw [dirty_loadEntity]
    exact hpresent
  constructor
  · have hshows := showsAdded_addComponent (host.world.loadEntity host.env e).2 e t d
    have hreload := showsAdded_reload host.env t d hloadedPresent (by
      intro other data hdata
      rw [hloadedData, hold] at hdata
      dsimp only at hdata
      split_ifs at hdata
      exact hdata)
    rw [hloadedData] at hshows
    rw [hloadedTypes, Option.getD_some, ← hold] at hreload
    exact ⟨by rw [loadEntity_result, if_pos (Or.inr hstored)], hshows, hreload⟩
  · have hshows := showsAdded_addComponent host.world e t d
    have hreload := showsAdded_reload host.env t d hpresent (by simp [hnone])
    rw [hnone] at hshows
    rw [htypes, Option.getD_none] at hreload
    refine ⟨?_, hshows, by simpa using hreload⟩
    have hadded : unloaded.isLoaded e := by
      rw [isLoaded_eq, typesOf_addComponent, if_pos rfl]
      rfl
    rw [loadEntity, if_pos hadded]

def vel : Symbol := symbolShort "vel"

-- A session that has flushed one entity, followed by a new one.
def oneStored : List Call :=
  [.op .spawnEntity, .op (.addComponent 1 pos [1]), .flush, .loadMetadata]

theorem unloaded_entity_loses_component :
    let host := run step empty oneStored
    let added := host.world.addComponent 1 vel [2]
    (reload host.env 1).2.getComponent 1 pos = some [1] ∧
      ¬((reload (added.flush host.env).2 1).2.getComponent 1 pos = some [1]) ∧
      ¬((added.loadEntity host.env 1).2.getComponent 1 pos = some [1]) := by
  decide

theorem loaded_entity_keeps_component :
    let host := run step empty oneStored
    let added := (host.world.loadEntity host.env 1).2.addComponent 1 vel [2]
    ShowsAdded (reload (added.flush host.env).2 1).2 1 vel [2]
      ((reload host.env 1).2.getComponent 1) :=
  (add_to_stored_entity oneStored 1 vel [2] (by decide) (by decide) (by decide)).1.2.2.2

-- Every addition to the entity is undone by a removal or another despawn.
def AdditionsUndone (e : EntityId) (ops : List Op) : Prop :=
  ∀ past t d rest, ops = past ++ .addComponent e t d :: rest →
    ∃ op ∈ rest, op = .removeComponent e t ∨ op = .despawnEntity e

-- With nothing stored for the entity only additions bring its components into memory.
theorem getComponent_step_isSome_iff {env : Storage} {e : EntityId} (hnone : storedTypes env e = none)
    (world : StorageWorld) (op : Op) (t : Symbol) :
    ((world.step env op).getComponent e t).isSome ↔
      (∃ d, op = .addComponent e t d) ∨ (world.getComponent e t).isSome ∧
        ¬(op = .removeComponent e t ∨ op = .despawnEntity e) := by
  cases op with
  | loadEntity entityId =>
      have hsame : (world.step env (.loadEntity entityId)).getComponent e t = world.getComponent e t := by
        simp only [StorageWorld.step]
        rw [getComponent_loadEntity]
        by_cases heq : e = entityId
        · subst heq
          simp [storedComponent, hnone]
        · simp [heq]
      simp [hsame]
  | spawnEntity => simp [StorageWorld.step]
  | addComponent entityId componentType data =>
      simp only [StorageWorld.step, getComponent_addComponent]
      by_cases heq : e = entityId ∧ t = componentType
      · simp [heq]
      · rw [if_neg heq]
        simpa using fun hentity htype => absurd ⟨Eq.symm hentity, Eq.symm htype⟩ heq
  | removeComponent entityId componentType =>
      simp only [StorageWorld.step, getComponent_removeComponent]
      by_cases heq : e = entityId ∧ t = componentType
      · simp [heq]
      · rw [if_neg heq]
        simpa using fun _ hentity htype => absurd ⟨Eq.symm hentity, Eq.symm htype⟩ heq
  | despawnEntity entityId =>
      simp only [StorageWorld.step, getComponent_despawnEntity]
      by_cases heq : e = entityId
      · simp [heq]
      · simp [heq, Ne.symm heq]

-- Whatever a session does with an id it has despawned, the flush removes the entity. Memory
-- and storage agree on it exactly when nothing of it was stored and nothing is left in memory.
theorem despawned_id_agrees_iff (env : Storage) (world : StorageWorld) (e : EntityId) (ops : List Op) :
    let flushed := (run (StorageWorld.step env) (world.despawnEntity e) ops).flush env
    ((world.despawnEntity e).loadEntity env e).1 = .error .EntityNotFound ∧
        (∀ t, (reload flushed.2 e).2.getComponent e t = flushed.1.getComponent e t) ↔
      storedTypes env e = none ∧ AdditionsUndone e ops := by
  intro flushed
  have hdespawned : e ∈ (run (StorageWorld.step env) (world.despawnEntity e) ops).dirty.despawned :=
    run_invariant_of_step (fun world : StorageWorld => e ∈ world.dirty.despawned)
      (fun world op h => despawned_step env op h) ((mem_despawned_despawnEntity ..).mpr (Or.inr rfl)) ops
  have hreload : ∀ t, (reload flushed.2 e).2.getComponent e t = none := by
    intro t
    rw [getComponent_reload, storedComponent, storedTypes_flush, if_pos hdespawned]
    rfl
  have hmissing : ((world.despawnEntity e).loadEntity env e).1 = .error .EntityNotFound ↔
      storedTypes env e = none := by
    rw [loadEntity_result, isLoaded_eq, typesOf_despawnEntity, if_pos rfl]
    cases storedTypes env e <;> simp
  rw [hmissing]
  apply and_congr_right
  intro hnone
  have hinit : ∀ t, ¬((world.despawnEntity e).getComponent e t).isSome := by
    intro t
    rw [getComponent_despawnEntity, if_pos rfl]
    simp
  have hpresent := fun t => run_present_iff (fun world : StorageWorld => (world.getComponent e t).isSome)
    (hinit t) (fun world op => getComponent_step_isSome_iff hnone world op t) ops
  simp only [hreload, flushed, getComponent_flush]
  constructor
  · rintro hagree past t d rest rfl
    by_contra hkept
    have hthere := (hpresent t).mpr ⟨past, _, rest, rfl, ⟨d, rfl⟩, fun op hop hclears =>
      hkept ⟨op, hop, hclears⟩⟩
    rw [← hagree] at hthere
    cases hthere
  · intro hundone t
    by_contra hthere
    obtain ⟨past, _, rest, hsplit, ⟨d, rfl⟩, hkept⟩ :=
      (hpresent t).mp (Option.isSome_iff_ne_none.mpr (Ne.symm hthere))
    obtain ⟨op, hop, hclears⟩ := hundone past t d rest hsplit
    exact hkept op hop hclears

-- The id is used again in the session that despawned it: memory has the new component, and
-- storage loses the entity.
theorem revived_id_lost_on_flush :
    let host := run step empty (oneStored ++ [.op (.loadEntity 1)])
    let despawned := host.world.despawnEntity 1
    let flushed := (run (StorageWorld.step host.env) despawned
      [.addComponent 1 vel [2]]).flush host.env
    ¬((despawned.loadEntity host.env 1).1 = .error .EntityNotFound ∧
      ∀ t, (reload flushed.2 1).2.getComponent 1 t = flushed.1.getComponent 1 t) := by
  intro host despawned flushed
  rintro ⟨_, hagree⟩
  exact absurd (hagree vel) (by decide)

end Host

end Cougr
