import Cougr.ArchetypeWorld.Conversion
import Cougr.SimpleWorld.Presence
import Cougr.StorageWorld.Metadata
import Cougr.StorageWorld.RoundTrip

namespace Cougr

open Transition
open StorageWorld (storedData storedMetadata)

namespace SimpleWorld

variable {op : Op} {e : EntityId} {t : Symbol}

-- Only an addition makes a component appear, whatever the two maps hold.
theorem Contents.isSome_step {contents : Contents} (h : (contents.step op (e, t)).isSome) :
    (contents (e, t)).isSome ∨ op.AddsTo e := by
  cases op with
  | spawnEntity => exact Or.inl h
  | addComponentWithStorage e' t' data storage =>
      simp only [Contents.step, Function.update_apply, Prod.mk.injEq] at h
      split_ifs at h with hkey
      · exact Or.inr ⟨t', data, storage, by rw [hkey.1]⟩
      · exact Or.inl h
  | removeComponent e' t' =>
      simp only [Contents.step, Function.update_apply] at h
      split_ifs at h
      · cases h
      · exact Or.inl h
  | despawnEntity e' =>
      simp only [Contents.step] at h
      split_ifs at h
      · cases h
      · exact Or.inl h

theorem isSome_getComponent_step {world : SimpleWorld} (h : ((world.step op).getComponent e t).isSome) :
    (world.getComponent e t).isSome ∨ op.AddsTo e := by
  rw [← hasComponent_eq_isSome] at h ⊢
  cases op with
  | spawnEntity => exact Or.inl h
  | addComponentWithStorage e' t' data storage =>
      rcases (world.hasComponent_add e' e t' t data storage).mp h with hbefore | ⟨he, _⟩
      · exact Or.inl hbefore
      · exact Or.inr ⟨t', data, storage, by rw [he]⟩
  | removeComponent e' t' =>
      left
      have hafter := (world.hasComponent_remove e' e t' t).mp h
      split_ifs at hafter with hkey
      · obtain ⟨rfl, rfl⟩ := Prod.mk.inj hkey
        exact hasComponent_of_doubled hafter
      · exact hafter
  | despawnEntity e' => exact Or.inl ((world.hasComponent_despawn e' e t).mp h).1

end SimpleWorld

namespace ArchetypeWorld

-- The same operation where there are no storage kinds.
def Op.ofSimple : SimpleWorld.Op → Op
  | .spawnEntity => .spawnEntity
  | .addComponentWithStorage entityId componentType data _ => .addComponent entityId componentType data
  | .removeComponent entityId componentType => .removeComponent entityId componentType
  | .despawnEntity entityId => .despawnEntity entityId

theorem addsTo_flat_ofSimple {op : SimpleWorld.Op} {e : EntityId} (h : (Op.ofSimple op).flat.AddsTo e) :
    op.AddsTo e := by
  obtain ⟨t, data, storage, hop⟩ := h
  cases op with
  | addComponentWithStorage e' t' data' storage' =>
      cases hop
      exact ⟨t, data, storage', rfl⟩
  | spawnEntity => cases hop
  | removeComponent e' t' => cases hop
  | despawnEntity e' => cases hop

theorem isSome_getComponent_step {world : ArchetypeWorld} (hwell : WellFormed world) {op : SimpleWorld.Op}
    {e : EntityId} {t : Symbol} (h : ((world.step (.ofSimple op)).getComponent e t).isSome) :
    (world.getComponent e t).isSome ∨ op.AddsTo e := by
  have hreads := @getComponent_step world world.read hwell (fun _ _ => rfl) (.ofSimple op) e t
  rw [hreads] at h
  exact (SimpleWorld.Contents.isSome_step h).imp id addsTo_flat_ofSimple

-- A component that was copied was there, whether or not the maps hold one copy of it.
theorem isSome_getComponent_fromSimpleWorld {simple : SimpleWorld} {e : EntityId} {t : Symbol}
    (h : ((fromSimpleWorld simple).getComponent e t).isSome) : (simple.getComponent e t).isSome := by
  have hentries : ∀ entry ∈ simple.entries, simple.read entry.1 = some entry.2 := by
    intro entry hentry
    simp only [SimpleWorld.entries, List.mem_flatMap, List.mem_filterMap, Option.map_eq_some_iff] at hentry
    obtain ⟨e', _, t', _, data, hdata, rfl⟩ := hentry
    exact hdata
  have hread := (writes simple.nextEntityId).get_replay ⟨wellFormed_start _, rfl⟩ hentries (e, t)
  have hsame : (fromSimpleWorld simple).getComponent e t =
      read (Replay.replay write { new with nextEntityId := simple.nextEntityId } simple.entries) (e, t) := by
    rw [fromSimpleWorld_eq]
    rfl
  rw [hsame, hread] at h
  split_ifs at h
  · exact h
  · simp [read, getComponent, new] at h

end ArchetypeWorld

namespace StorageWorld

variable {env : Storage} {world : StorageWorld} {e : EntityId} {t : Symbol}

def Op.ofSimple : SimpleWorld.Op → Op
  | .spawnEntity => .spawnEntity
  | .addComponentWithStorage entityId componentType data _ => .addComponent entityId componentType data
  | .removeComponent entityId componentType => .removeComponent entityId componentType
  | .despawnEntity entityId => .despawnEntity entityId

theorem nextEntityId_step (op : SimpleWorld.Op) :
    (world.step env (.ofSimple op)).metadata.nextEntityId = world.metadata.nextEntityId + op.idsTaken := by
  cases op with
  | removeComponent e t => exact nextEntityId_removeComponent ..
  | spawnEntity => rfl
  | addComponentWithStorage e t data storage => rfl
  | despawnEntity e => rfl

-- In memory a session reads as the partial map that its operations describe.
theorem getComponent_step (op : SimpleWorld.Op) : (world.step env (.ofSimple op)).getComponent e t =
    SimpleWorld.Contents.step (fun key => world.getComponent key.1 key.2) op (e, t) := by
  cases op with
  | spawnEntity => rfl
  | addComponentWithStorage e' t' data storage =>
      simp only [Op.ofSimple, step, getComponent_addComponent, SimpleWorld.Contents.step, Function.update_apply,
        Prod.mk.injEq]
  | removeComponent e' t' =>
      simp only [Op.ofSimple, step, getComponent_removeComponent, SimpleWorld.Contents.step,
        Function.update_apply, Prod.mk.injEq]
  | despawnEntity e' => simp only [Op.ofSimple, step, getComponent_despawnEntity, SimpleWorld.Contents.step]

theorem isSome_getComponent_step {op : SimpleWorld.Op}
    (h : ((world.step env (.ofSimple op)).getComponent e t).isSome) :
    (world.getComponent e t).isSome ∨ op.AddsTo e := by
  rw [getComponent_step] at h
  exact SimpleWorld.Contents.isSome_step h

theorem isSome_getComponent_loadEntity {entityId : EntityId}
    (h : ((world.loadEntity env entityId).2.getComponent e t).isSome) :
    (world.getComponent e t).isSome ∨ (storedData env e t).isSome := by
  rw [getComponent_loadEntity, Option.isSome_or, Bool.or_eq_true] at h
  rcases h with hloaded | hnew
  · exact Or.inl hloaded
  · right
    split_ifs at hnew with hcond
    · rw [hcond.1]
      rw [storedComponent, Option.isSome_bind] at hnew
      cases htypes : storedTypes env entityId with
      | none => simp [htypes] at hnew
      | some types =>
          simp only [htypes, Option.any_some] at hnew
          split_ifs at hnew
          · exact hnew
          · cases hnew
    · cases hnew

theorem isSome_storedData_flush (h : (storedData (world.flush env).2 e t).isSome) :
    (storedData env e t).isSome ∨ (world.getComponent e t).isSome := by
  by_cases hdespawned : e ∈ world.dirty.despawned
  · exact Or.inl ((storedData_flush_of_despawned world env hdespawned t).mp h).1
  · rw [storedData_flush _ _ hdespawned] at h
    split_ifs at h
    · rw [Option.isSome_or, Bool.or_eq_true] at h
      exact h.symm
    · exact Or.inl h

theorem isSome_getComponent_toSimpleWorld (h : (world.toSimpleWorld.getComponent e t).isSome) :
    (world.getComponent e t).isSome := by
  rw [getComponent_toSimpleWorld] at h
  split_ifs at h
  · exact h
  · cases h

theorem isSome_getComponent_fromSimpleWorld {simple : SimpleWorld}
    (h : ((fromSimpleWorld simple).getComponent e t).isSome) : (simple.getComponent e t).isSome := by
  rw [getComponent_fromSimpleWorld] at h
  split_ifs at h
  · exact h
  · cases h

end StorageWorld

namespace Migration

-- The representation a contract works on at the moment.
inductive World where
  | simple (world : SimpleWorld)
  | archetypes (world : ArchetypeWorld)
  | stored (world : StorageWorld)

namespace World

def nextEntityId : World → EntityId
  | .simple world => world.nextEntityId
  | .archetypes world => world.nextEntityId
  | .stored world => world.metadata.nextEntityId

def getComponent : World → EntityId → Symbol → Option Bytes
  | .simple world => world.getComponent
  | .archetypes world => world.getComponent
  | .stored world => world.getComponent

-- The id that a spawn returns.
def spawned : World → EntityId
  | .simple world => world.spawnEntity.1
  | .archetypes world => world.spawnEntity.1
  | .stored world => world.spawnEntity.1

-- Only the flat world takes a storage kind.
def step (env : Storage) (op : SimpleWorld.Op) : World → World
  | .simple world => .simple (world.step op)
  | .archetypes world => .archetypes (world.step (.ofSimple op))
  | .stored world => .stored (world.step env (.ofSimple op))

-- What the conversions and the flush rely on.
def Fits (env : Storage) : World → Prop
  | .simple _ => True
  | .archetypes world => ArchetypeWorld.WellFormed world
  | .stored world => Host.MetaKept ⟨env, world⟩

variable {world : World} {env : Storage}

theorem spawned_eq (world : World) : world.spawned = world.nextEntityId := by cases world <;> rfl

theorem nextEntityId_step (op : SimpleWorld.Op) :
    (world.step env op).nextEntityId = world.nextEntityId + op.idsTaken := by
  cases world with
  | simple world => exact world.nextEntityId_step op
  | archetypes world =>
      have hnext := world.nextEntityId_step (.ofSimple op)
      cases op <;> exact hnext
  | stored world => exact StorageWorld.nextEntityId_step op

theorem isSome_getComponent_step (hfits : world.Fits env) {op : SimpleWorld.Op} {e : EntityId} {t : Symbol}
    (h : ((world.step env op).getComponent e t).isSome) : (world.getComponent e t).isSome ∨ op.AddsTo e := by
  cases world with
  | simple world => exact SimpleWorld.isSome_getComponent_step h
  | archetypes world => exact ArchetypeWorld.isSome_getComponent_step hfits h
  | stored world => exact StorageWorld.isSome_getComponent_step h

theorem fits_step (hfits : world.Fits env) (op : SimpleWorld.Op) : (world.step env op).Fits env := by
  cases world with
  | simple world => trivial
  | archetypes world => exact ArchetypeWorld.wellFormed_step hfits _
  | stored world => exact Host.metaKept_op hfits _

end World

structure Contract where
  env : Storage
  world : World
  -- what the spawns have returned so far
  issued : List EntityId

namespace Contract

inductive Call where
  | op (op : SimpleWorld.Op)
  | toArchetypeWorld
  | toStorageWorld
  | toSimpleWorld
  -- a flush, and a new session on what it wrote
  | reload
  | loadEntity (entityId : EntityId)

def issue (world : World) : SimpleWorld.Op → List EntityId
  | .spawnEntity => [world.spawned]
  | .addComponentWithStorage _ _ _ _ => []
  | .removeComponent _ _ => []
  | .despawnEntity _ => []

-- A call that the representation at hand does not have changes nothing.
def step (contract : Contract) : Call → Contract
  | .op op =>
    { contract with
      world := contract.world.step contract.env op
      issued := contract.issued ++ issue contract.world op }
  | .toArchetypeWorld =>
    match contract.world with
    | .simple world => { contract with world := .archetypes (.fromSimpleWorld world) }
    | _ => contract
  | .toStorageWorld =>
    match contract.world with
    | .simple world => { contract with world := .stored (.fromSimpleWorld world) }
    | _ => contract
  | .toSimpleWorld =>
    match contract.world with
    | .simple _ => contract
    | .archetypes world => { contract with world := .simple world.toSimpleWorld }
    | .stored world => { contract with world := .simple world.toSimpleWorld }
  | .reload =>
    match contract.world with
    | .stored world =>
      let (_, env) := world.flush contract.env
      { contract with env, world := .stored (.loadMetadata env) }
    | _ => contract
  | .loadEntity entityId =>
    match contract.world with
    | .stored world => { contract with world := .stored (world.loadEntity contract.env entityId).2 }
    | _ => contract

def start : Contract := ⟨KeyStore.empty, .simple .new, []⟩

-- Components are added to entities that have been spawned.
def OnSpawned (contract : Contract) : Call → Prop
  | .op (.addComponentWithStorage entityId _ _ _) => entityId ∈ contract.issued
  | .op .spawnEntity => True
  | .op (.removeComponent _ _) => True
  | .op (.despawnEntity _) => True
  | .toArchetypeWorld => True
  | .toStorageWorld => True
  | .toSimpleWorld => True
  | .reload => True
  | .loadEntity _ => True

instance (contract : Contract) : (call : Call) → Decidable (OnSpawned contract call)
  | .op (.addComponentWithStorage _ _ _ _) => inferInstanceAs (Decidable (_ ∈ _))
  | .op .spawnEntity => inferInstanceAs (Decidable True)
  | .op (.removeComponent _ _) => inferInstanceAs (Decidable True)
  | .op (.despawnEntity _) => inferInstanceAs (Decidable True)
  | .toArchetypeWorld => inferInstanceAs (Decidable True)
  | .toStorageWorld => inferInstanceAs (Decidable True)
  | .toSimpleWorld => inferInstanceAs (Decidable True)
  | .reload => inferInstanceAs (Decidable True)
  | .loadEntity _ => inferInstanceAs (Decidable True)

def Call.idsTaken : Call → Nat
  | .op simple => simple.idsTaken
  | .toArchetypeWorld => 0
  | .toStorageWorld => 0
  | .toSimpleWorld => 0
  | .reload => 0
  | .loadEntity _ => 0

def Call.AddsTo (call : Call) (e : EntityId) : Prop := ∃ op, call = .op op ∧ op.AddsTo e

-- What one call does to the counter, and where the components come from that it leaves.
structure Accounted (contract : Contract) (call : Call) (after : Contract) : Prop where
  counter : after.world.nextEntityId = contract.world.nextEntityId + call.idsTaken
  issued : after.issued = contract.issued ++ List.range' contract.world.nextEntityId call.idsTaken
  components : ∀ e t, (after.world.getComponent e t).isSome →
    (contract.world.getComponent e t).isSome ∨ (storedData contract.env e t).isSome ∨ call.AddsTo e
  stored : ∀ e t, (storedData after.env e t).isSome →
    (storedData contract.env e t).isSome ∨ (contract.world.getComponent e t).isSome
  fits : after.world.Fits after.env

variable {contract : Contract}

theorem accounted_op (hfits : contract.world.Fits contract.env) (op : SimpleWorld.Op) :
    Accounted contract (.op op) (contract.step (.op op)) where
  counter := World.nextEntityId_step op
  issued := by
    cases op with
    | spawnEntity => simp [step, issue, World.spawned_eq, Call.idsTaken, SimpleWorld.Op.idsTaken]
    | addComponentWithStorage e t data storage => rfl
    | removeComponent e t => rfl
    | despawnEntity e => rfl
  components e t h := by
    rcases World.isSome_getComponent_step hfits h with hbefore | hadds
    · exact Or.inl hbefore
    · exact Or.inr (Or.inr ⟨op, rfl, hadds⟩)
  stored _ _ h := Or.inl h
  fits := World.fits_step hfits op

-- A call that takes no id and whose world shows nothing but what was shown or stored before.
theorem accounted_of_world {call : Call} {world : World} (hcall : call.idsTaken = 0)
    (hnext : world.nextEntityId = contract.world.nextEntityId)
    (hshown : ∀ e t, (world.getComponent e t).isSome →
      (contract.world.getComponent e t).isSome ∨ (storedData contract.env e t).isSome)
    (hfits : world.Fits contract.env) : Accounted contract call { contract with world } where
  counter := by rw [hcall, hnext, Nat.add_zero]
  issued := by rw [hcall, List.range'_zero, List.append_nil]
  components e t h := (hshown e t h).imp id Or.inl
  stored _ _ h := Or.inl h
  fits := hfits

theorem accounted_unchanged {call : Call} (hcall : call.idsTaken = 0)
    (hfits : contract.world.Fits contract.env) : Accounted contract call contract :=
  accounted_of_world hcall rfl (fun _ _ h => Or.inl h) hfits

theorem accounted_step (hfits : contract.world.Fits contract.env) (call : Call) :
    Accounted contract call (contract.step call) := by
  obtain ⟨env, world, issued⟩ := contract
  cases call with
  | op op => exact accounted_op hfits op
  | toArchetypeWorld =>
      cases world with
      | simple world =>
          obtain ⟨hwell, hnext⟩ := ArchetypeWorld.wellFormed_fromSimpleWorld world
          exact accounted_of_world rfl hnext
            (fun e t h => Or.inl (ArchetypeWorld.isSome_getComponent_fromSimpleWorld h)) hwell
      | archetypes world => exact accounted_unchanged rfl hfits
      | stored world => exact accounted_unchanged rfl hfits
  | toStorageWorld =>
      cases world with
      | simple world =>
          have hmetadata := (StorageWorld.taken_fromSimpleWorld world).metadata
          refine accounted_of_world rfl (congrArg WorldMetadata.nextEntityId hmetadata)
            (fun e t h => Or.inl (StorageWorld.isSome_getComponent_fromSimpleWorld h)) ?_
          -- the conversion has marked the metadata
          intro hclean
          cases (StorageWorld.metaDirty_fromSimpleWorld world).symm.trans hclean
      | archetypes world => exact accounted_unchanged rfl hfits
      | stored world => exact accounted_unchanged rfl hfits
  | toSimpleWorld =>
      cases world with
      | simple world => exact accounted_unchanged rfl hfits
      | archetypes world =>
          refine accounted_of_world rfl (ArchetypeWorld.indexed_toSimpleWorld world).2 (fun e t h => Or.inl ?_)
            trivial
          rwa [World.getComponent, ArchetypeWorld.getComponent_toSimpleWorld hfits] at h
      | stored world =>
          exact accounted_of_world rfl (StorageWorld.nextEntityId_toSimpleWorld world)
            (fun e t h => Or.inl (StorageWorld.isSome_getComponent_toSimpleWorld h)) trivial
  | reload =>
      cases world with
      | simple world => exact accounted_unchanged rfl hfits
      | archetypes world => exact accounted_unchanged rfl hfits
      | stored world =>
          have hmetadata : storedMetadata (world.flush env).2 = world.metadata :=
            StorageWorld.storedMetadata_flush_of_kept hfits
          exact {
            counter := congrArg WorldMetadata.nextEntityId hmetadata
            issued := (List.append_nil issued).symm
            components := fun _ _ h => by cases h
            stored := fun _ _ h => StorageWorld.isSome_storedData_flush h
            fits := fun _ => rfl }
  | loadEntity entityId =>
      cases world with
      | simple world => exact accounted_unchanged rfl hfits
      | archetypes world => exact accounted_unchanged rfl hfits
      | stored world =>
          apply accounted_of_world rfl
          · exact congrArg WorldMetadata.nextEntityId (world.metadata_loadEntity env entityId)
          · exact fun e t h => StorageWorld.isSome_getComponent_loadEntity h
          · exact @Host.metaKept_op ⟨env, world⟩ hfits (.loadEntity entityId)

-- The ids come in order, and whatever is shown or stored belongs to one that is below the counter.
structure Numbered (contract : Contract) : Prop where
  counter : contract.world.nextEntityId = 1 + contract.issued.length
  issued : contract.issued = List.range' 1 contract.issued.length
  components : ∀ e t, (contract.world.getComponent e t).isSome → e < contract.world.nextEntityId
  stored : ∀ e t, (storedData contract.env e t).isSome → e < contract.world.nextEntityId
  fits : contract.world.Fits contract.env

theorem numbered_start : Numbered start where
  counter := rfl
  issued := rfl
  components e t h := by simp [start, World.getComponent, SimpleWorld.getComponent, SimpleWorld.new] at h
  stored e t h := by cases h
  fits := trivial

theorem Numbered.mem_issued_iff (h : Numbered contract) (e : EntityId) :
    e ∈ contract.issued ↔ 1 ≤ e ∧ e < contract.world.nextEntityId := by
  rw [h.issued, List.mem_range'_1, h.counter]

theorem lt_of_addsTo (h : Numbered contract) {call : Call} (hcall : OnSpawned contract call) {e : EntityId}
    (hadds : call.AddsTo e) : e < contract.world.nextEntityId := by
  obtain ⟨_, rfl, t, data, storage, rfl⟩ := hadds
  exact ((h.mem_issued_iff e).mp hcall).2

theorem numbered_step (contract : Contract) (call : Call) (h : Numbered contract)
    (hcall : OnSpawned contract call) : Numbered (contract.step call) := by
  have haccounted := accounted_step h.fits call
  have hissued := haccounted.issued
  rw [h.issued, h.counter, List.range'_append_1] at hissued
  have hlength : (contract.step call).issued.length = contract.issued.length + call.idsTaken := by
    rw [hissued, List.length_range']
  have hgrows : contract.world.nextEntityId ≤ (contract.step call).world.nextEntityId := by
    rw [haccounted.counter]
    exact Nat.le_add_right ..
  refine ⟨?_, ?_, fun e t hthere => ?_, fun e t hthere => ?_, haccounted.fits⟩
  · rw [haccounted.counter, hlength, h.counter, Nat.add_assoc]
  · rw [hlength]
    exact hissued
  · apply Nat.lt_of_lt_of_le _ hgrows
    rcases haccounted.components e t hthere with hbefore | hstored | hadds
    · exact h.components e t hbefore
    · exact h.stored e t hstored
    · exact lt_of_addsTo h hcall hadds
  · apply Nat.lt_of_lt_of_le _ hgrows
    rcases haccounted.stored e t hthere with hstored | hshown
    · exact h.stored e t hstored
    · exact h.components e t hshown

theorem numbered_run (calls : List Call) (hcalls : StepsMeet step OnSpawned start calls) :
    Numbered (run step start calls) :=
  run_invariant Numbered numbered_step numbered_start calls hcalls

-- No way through the representations and storage hands out an id again, or keeps a component of one that
-- is still to come.
theorem ids_never_reissued (calls : List Call) (hcalls : StepsMeet step OnSpawned start calls) :
    let contract := run step start calls
    contract.issued.Nodup ∧ (∀ id ∈ contract.issued, 1 ≤ id) ∧
      ∀ e t, (contract.world.getComponent e t).isSome → e < contract.world.nextEntityId := by
  intro contract
  have h : Numbered contract := numbered_run calls hcalls
  refine ⟨?_, fun id hid => ((h.mem_issued_iff id).mp hid).1, h.components⟩
  rw [h.issued]
  exact List.nodup_range'

-- A ship is stored and loaded again, and meets a second one among the archetypes.
def travels : List Call :=
  [.op .spawnEntity, .op (.addComponentWithStorage 1 SimpleWorld.hull [9] .Sparse), .toStorageWorld, .reload,
    .loadEntity 1, .op .spawnEntity, .toSimpleWorld, .toArchetypeWorld, .op .spawnEntity,
    .op (.addComponentWithStorage 3 SimpleWorld.hull [7] .Table)]

theorem three_ships_apart : (run step start travels).issued.Nodup :=
  (ids_never_reissued travels (by decide)).1

end Contract

end Migration

end Cougr
