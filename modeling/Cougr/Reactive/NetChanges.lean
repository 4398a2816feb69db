import Cougr.Reactive
import Cougr.SimpleWorld.Entries
import Cougr.SimpleWorld.Presence
import Cougr.Library.NetChange

namespace Cougr

open NetChange

namespace ChangeTracker

variable (self : ChangeTracker) (e : EntityId) (t : Symbol)

theorem wasAdded_iff : self.wasAdded e t ↔ (e, t) ∈ self.added := by simp [wasAdded]

theorem wasRemoved_iff : self.wasRemoved e t ↔ (e, t) ∈ self.removed := by simp [wasRemoved]

theorem wasModified_iff : self.wasModified e t ↔ (e, t) ∈ self.modified := by simp [wasModified]

theorem foldl_recordRemove (types : List Symbol) :
    types.foldl (fun tracker t => tracker.recordRemove e t) self =
      { self with removed := self.removed ++ types.map fun t => (e, t) } := by
  induction types generalizing self with
  | nil => simp
  | cons first rest ih =>
      rw [List.foldl_cons, ih]
      simp [recordRemove]

end ChangeTracker

namespace TrackedWorld

-- An addition that names no storage kind is one to the table map.
theorem addComponent_eq (self : TrackedWorld) (e : EntityId) (t : Symbol) (data : Bytes) :
    self.addComponent e t data = self.addComponentWithStorage e t data .Table := rfl

def step (self : TrackedWorld) : SimpleWorld.Op → TrackedWorld
  | .spawnEntity => self.spawnEntity.2
  | .addComponentWithStorage entityId componentType data storage =>
    self.addComponentWithStorage entityId componentType data storage
  | .removeComponent entityId componentType => (self.removeComponent entityId componentType).2
  | .despawnEntity entityId => self.despawnEntity entityId

section Records

-- What an operation on the world adds to each list of records.

def addedBy (world : SimpleWorld) : SimpleWorld.Op → List (EntityId × Symbol)
  | .spawnEntity => []
  | .addComponentWithStorage e t _ _ => if world.hasComponent e t then [] else [(e, t)]
  | .removeComponent _ _ => []
  | .despawnEntity _ => []

def modifiedBy (world : SimpleWorld) : SimpleWorld.Op → List (EntityId × Symbol)
  | .spawnEntity => []
  | .addComponentWithStorage e t _ _ => if world.hasComponent e t then [(e, t)] else []
  | .removeComponent _ _ => []
  | .despawnEntity _ => []

def removedBy (world : SimpleWorld) : SimpleWorld.Op → List (EntityId × Symbol)
  | .spawnEntity => []
  | .addComponentWithStorage _ _ _ _ => []
  | .removeComponent e t => if world.hasComponent e t then [(e, t)] else []
  | .despawnEntity e => (world.types e).map fun t => (e, t)

theorem step_eq (self : TrackedWorld) (op : SimpleWorld.Op) : self.step op =
    { world := self.world.step op
      tracker := { self.tracker with
        added := self.tracker.added ++ addedBy self.world op
        removed := self.tracker.removed ++ removedBy self.world op
        modified := self.tracker.modified ++ modifiedBy self.world op } } := by
  cases op with
  | spawnEntity => simp [step, spawnEntity, SimpleWorld.step, addedBy, removedBy, modifiedBy]
  | addComponentWithStorage e t data storage =>
      by_cases hhas : self.world.hasComponent e t
      · simp [step, addComponentWithStorage, SimpleWorld.step, addedBy, removedBy, modifiedBy, hhas,
          ChangeTracker.recordModify]
      · simp [step, addComponentWithStorage, SimpleWorld.step, addedBy, removedBy, modifiedBy, hhas,
          ChangeTracker.recordAdd]
  | removeComponent e t =>
      have hresult := self.world.removeComponent_fst e t
      by_cases hhas : self.world.hasComponent e t
      · simp [step, removeComponent, SimpleWorld.step, addedBy, removedBy, modifiedBy, hresult, hhas,
          ChangeTracker.recordRemove]
      · simp [step, removeComponent, SimpleWorld.step, addedBy, removedBy, modifiedBy, hresult, hhas]
  | despawnEntity e =>
      cases htypes : self.world.entityComponents.get e with
      | none =>
          simp [step, despawnEntity, SimpleWorld.step, addedBy, removedBy, modifiedBy, SimpleWorld.types, htypes]
      | some types =>
          simp [step, despawnEntity, SimpleWorld.step, addedBy, removedBy, modifiedBy, SimpleWorld.types, htypes,
            ChangeTracker.foldl_recordRemove]

end Records

section Step

variable {world : SimpleWorld} {op : SimpleWorld.Op} {e : EntityId} {t : Symbol}

-- A second copy only comes with a record of a modification.
theorem doubled_step (h : (world.step op).Doubled e t) : world.Doubled e t ∨ (e, t) ∈ modifiedBy world op := by
  obtain ⟨htable, hsparse⟩ := h
  cases op with
  | spawnEntity => exact Or.inl ⟨htable, hsparse⟩
  | addComponentWithStorage e' t' data storage =>
      rw [SimpleWorld.step, SimpleWorld.get_components_add] at htable
      rw [SimpleWorld.step, SimpleWorld.get_sparseComponents_add] at hsparse
      by_cases hkey : (e, t) = (e', t')
      · right
        obtain ⟨rfl, rfl⟩ := Prod.mk.inj hkey
        have hhas : world.hasComponent e t := by
          rw [SimpleWorld.hasComponent_eq_isSome, SimpleWorld.getComponent, Option.isSome_or, Bool.or_eq_true]
          cases storage with
          | Table => exact Or.inr (by simpa using hsparse)
          | Sparse => exact Or.inl (by simpa using htable)
        simp [modifiedBy, hhas]
      · left
        simp only [hkey, and_false, if_false] at htable hsparse
        exact ⟨htable, hsparse⟩
  | removeComponent e' t' =>
      left
      rw [SimpleWorld.step, SimpleWorld.removeComponent_components, Map.get_erase] at htable
      rw [SimpleWorld.step, SimpleWorld.removeComponent_sparseComponents] at hsparse
      split_ifs at htable with hkey
      · cases htable
      · refine ⟨htable, ?_⟩
        split_ifs at hsparse
        · exact hsparse
        · rwa [Map.get_erase, if_neg hkey] at hsparse
  | despawnEntity e' =>
      left
      rw [SimpleWorld.step, SimpleWorld.get_components_despawn] at htable
      rw [SimpleWorld.step, SimpleWorld.get_sparseComponents_despawn] at hsparse
      split_ifs at htable hsparse
      · cases htable
      · exact ⟨htable, hsparse⟩

-- What an operation does to one component, against the records before it and those it makes.
def Notes (world : SimpleWorld) (op : SimpleWorld.Op) (e : EntityId) (t : Symbol) (records : ChangeTracker) :
    Prop :=
  Noted (world.getComponent e t) ((world.step op).getComponent e t)
    ((e, t) ∈ records.added) ((e, t) ∈ records.removed) ((e, t) ∈ records.modified)
    ((e, t) ∈ records.added ++ addedBy world op) ((e, t) ∈ records.removed ++ removedBy world op)
    ((e, t) ∈ records.modified ++ modifiedBy world op)

variable {records : ChangeTracker}

theorem notes_of_unchanged (hsame : (world.step op).getComponent e t = world.getComponent e t) :
    Notes world op e t records :=
  noted_of_eq hsame (List.mem_append_left _) (List.mem_append_left _) (List.mem_append_left _)

theorem notes_add (data : Bytes) (storage : ComponentStorage) :
    Notes world (.addComponentWithStorage e t data storage) e t records := by
  have hhas := world.hasComponent_eq_isSome e t
  have hthere : ((world.step (.addComponentWithStorage e t data storage)).getComponent e t).isSome := by
    rw [SimpleWorld.step, SimpleWorld.getComponent, SimpleWorld.get_components_add,
      SimpleWorld.get_sparseComponents_add]
    cases storage <;> simp
  refine ⟨fun hnone _ => ?_, fun _ hnone => ?_, fun old _ hold _ _ => ?_, List.mem_append_left _,
    List.mem_append_left _, List.mem_append_left _⟩
  · rw [hnone] at hhas
    simp [addedBy, hhas]
  · rw [hnone] at hthere
    cases hthere
  · rw [hold] at hhas
    simp [modifiedBy, hhas]

theorem notes_remove (hdoubled : world.Doubled e t → (e, t) ∈ records.modified) :
    Notes world (.removeComponent e t) e t records := by
  have hhas := world.hasComponent_eq_isSome e t
  have hafter : (world.step (.removeComponent e t)).getComponent e t = _ := SimpleWorld.getComponent_remove_self
  by_cases hthere : (world.getComponent e t).isSome
  · have hrecorded : (e, t) ∈ records.removed ++ removedBy world (.removeComponent e t) := by
      simp [removedBy, hhas, hthere]
    refine ⟨fun hnone _ => ?_, fun _ _ => hrecorded, fun old new _ hnew _ => ?_, List.mem_append_left _,
      List.mem_append_left _, List.mem_append_left _⟩
    · rw [hnone] at hthere
      cases hthere
    · -- the sparse copy has come to light
      rw [hafter] at hnew
      split_ifs at hnew with htable
      exact List.mem_append_left _ (hdoubled ⟨htable, by rw [hnew]; rfl⟩)
  · apply notes_of_unchanged
    rw [Option.not_isSome_iff_eq_none] at hthere
    have hparts := hthere
    rw [SimpleWorld.getComponent, Option.or_eq_none_iff] at hparts
    rw [hafter, hparts.1, hthere]
    rfl

theorem notes_despawn : Notes world (.despawnEntity e) e t records := by
  have hafter : (world.step (.despawnEntity e)).getComponent e t = _ := SimpleWorld.getComponent_despawn_self
  by_cases hlisted : t ∈ world.types e
  · rw [if_pos hlisted] at hafter
    have hrecorded : (e, t) ∈ records.removed ++ removedBy world (.despawnEntity e) := by
      simp [removedBy, hlisted]
    refine ⟨fun _ hsome => ?_, fun _ _ => hrecorded, fun old new _ hnew _ => ?_, List.mem_append_left _,
      List.mem_append_left _, List.mem_append_left _⟩
    · rw [hafter] at hsome
      cases hsome
    · rw [hafter] at hnew
      cases hnew
  · rw [if_neg hlisted] at hafter
    exact notes_of_unchanged hafter

theorem notes_step (hdoubled : world.Doubled e t → (e, t) ∈ records.modified) (op : SimpleWorld.Op) :
    Notes world op e t records := by
  by_cases htarget : op.Targets e t
  · cases op with
    | spawnEntity => exact absurd htarget id
    | addComponentWithStorage e' t' data storage =>
        obtain ⟨rfl, rfl⟩ := htarget
        exact notes_add data storage
    | removeComponent e' t' =>
        obtain ⟨rfl, rfl⟩ := htarget
        exact notes_remove hdoubled
    | despawnEntity e' =>
        cases (show e = e' from htarget)
        exact notes_despawn
  · exact notes_of_unchanged (SimpleWorld.getComponent_step_of_not_targets world op e t htarget)

end Step

section Run

-- The records explain what has become of the component, and a second copy of it is among them.
structure Explained (start : Option Bytes) (e : EntityId) (t : Symbol) (tracked : TrackedWorld) : Prop where
  recorded : Recorded start (tracked.getComponent e t) ((e, t) ∈ tracked.tracker.added)
    ((e, t) ∈ tracked.tracker.removed) ((e, t) ∈ tracked.tracker.modified)
  doubled : tracked.world.Doubled e t → (e, t) ∈ tracked.tracker.modified

variable {start : Option Bytes} {e : EntityId} {t : Symbol}

theorem explained_step (tracked : TrackedWorld) (op : SimpleWorld.Op) (h : Explained start e t tracked) :
    Explained start e t (tracked.step op) := by
  rw [step_eq]
  constructor
  · exact h.recorded.step (notes_step h.doubled op)
  · intro hdoubled
    rcases doubled_step hdoubled with hbefore | hrecorded
    · exact List.mem_append_left _ (h.doubled hbefore)
    · exact List.mem_append_right _ hrecorded

-- From a cleared tracker on, the records tell a system everything that it would miss by skipping an entity.
theorem net_changes_recorded (kind : Symbol → ComponentStorage) (past : List SimpleWorld.Op)
    (hfollows : ∀ op ∈ past, op.Follows kind) (tracker : ChangeTracker) (ops : List SimpleWorld.Op) :
    let start : TrackedWorld := ⟨SimpleWorld.worldAfter past, tracker.clear⟩
    let final := Transition.run step start ops
    ∀ e t, Recorded (start.getComponent e t) (final.getComponent e t) (final.tracker.wasAdded e t)
      (final.tracker.wasRemoved e t) (final.tracker.wasModified e t) := by
  intro start final e t
  have hindexed : SimpleWorld.Indexed kind start.world := SimpleWorld.invariant_worldAfter past hfollows
  have hstart : Explained (start.getComponent e t) e t start :=
    ⟨recorded_refl .., fun hdoubled => absurd hdoubled (hindexed.not_doubled e t)⟩
  have hfinal : Explained (start.getComponent e t) e t final :=
    Transition.run_invariant_of_step _ explained_step hstart ops
  simp only [ChangeTracker.wasAdded_iff, ChangeTracker.wasRemoved_iff, ChangeTracker.wasModified_iff]
  exact hfinal.recorded

-- The hull is taken off and put on again with other data.
theorem refitted_ship_recorded :
    let start : TrackedWorld := ⟨SimpleWorld.worldAfter SimpleWorld.markedShip, ChangeTracker.new.clear⟩
    let refit : List SimpleWorld.Op :=
      [.removeComponent 1 SimpleWorld.hull, .addComponentWithStorage 1 SimpleWorld.hull [7] .Table]
    let final := Transition.run step start refit
    final.tracker.wasModified 1 SimpleWorld.hull ∨
      final.tracker.wasRemoved 1 SimpleWorld.hull ∧ final.tracker.wasAdded 1 SimpleWorld.hull :=
  (net_changes_recorded SimpleWorld.markerKind SimpleWorld.markedShip (by decide) .new
    [.removeComponent 1 SimpleWorld.hull, .addComponentWithStorage 1 SimpleWorld.hull [7] .Table] 1
    SimpleWorld.hull).changed [9] [7] (by decide) (by decide) (by decide)

end Run

end TrackedWorld

end Cougr
