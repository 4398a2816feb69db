import Cougr.StorageWorld.Conversion
import Cougr.StorageWorld.Undisciplined

namespace Cougr

open StorageWorld Transition

namespace Host

-- Calls that work on what is in memory: nothing is loaded, and a flush only writes.
def Call.InMemory : Call → Prop
  | .op (.loadEntity _) => False
  | .op .spawnEntity => True
  | .op (.addComponent _ _ _) => True
  | .op (.removeComponent _ _) => True
  | .op (.despawnEntity _) => True
  | .loadMetadata => False
  | .flush => True

instance : DecidablePred Call.InMemory
  | .op (.loadEntity _) => inferInstanceAs (Decidable False)
  | .op .spawnEntity => inferInstanceAs (Decidable True)
  | .op (.addComponent _ _ _) => inferInstanceAs (Decidable True)
  | .op (.removeComponent _ _) => inferInstanceAs (Decidable True)
  | .op (.despawnEntity _) => inferInstanceAs (Decidable True)
  | .loadMetadata => inferInstanceAs (Decidable False)
  | .flush => inferInstanceAs (Decidable True)

-- The same operation on a flat world, where every addition goes to the table map.
def Call.flat : Call → Option SimpleWorld.Op
  | .op (.loadEntity _) => none
  | .op .spawnEntity => some .spawnEntity
  | .op (.addComponent e t d) => some (.addComponentWithStorage e t d .Table)
  | .op (.removeComponent e t) => some (.removeComponent e t)
  | .op (.despawnEntity e) => some (.despawnEntity e)
  | .loadMetadata => none
  | .flush => none

def flatWorldAfter (calls : List Call) : SimpleWorld := SimpleWorld.worldAfter (calls.filterMap Call.flat)

theorem follows_flat {call : Call} {op : SimpleWorld.Op} (hflat : call.flat = some op) :
    op.Follows fun _ => .Table := by
  cases call with
  | loadMetadata => cases hflat
  | flush => cases hflat
  | op storage =>
      cases storage with
      | loadEntity e => cases hflat
      | addComponent e t d =>
          cases hflat
          exact rfl
      | spawnEntity =>
          cases hflat
          trivial
      | removeComponent e t =>
          cases hflat
          trivial
      | despawnEntity e =>
          cases hflat
          trivial

theorem indexed_flatWorldAfter (calls : List Call) :
    SimpleWorld.Indexed (fun _ => .Table) (flatWorldAfter calls) := by
  apply SimpleWorld.invariant_worldAfter
  intro op hop
  obtain ⟨call, _, hflat⟩ := List.mem_filterMap.mp hop
  exact follows_flat hflat

-- The lists of the storage world hold what the maps of the flat world hold. Of several loaded entities with
-- one id the first names the types.
structure MirrorsFlat (world : StorageWorld) (flat : SimpleWorld) : Prop where
  next : world.metadata.nextEntityId = flat.nextEntityId
  get : ∀ e t, world.getComponent e t = flat.getComponent e t
  listed : ∀ e t, (world.getComponent e t).isSome → t ∈ (world.typesOf e).getD []

variable {world : StorageWorld} {flat : SimpleWorld}

theorem mirrorsFlat_empty : MirrorsFlat empty.world SimpleWorld.new where
  next := rfl
  get e t := by simp [SimpleWorld.getComponent, SimpleWorld.new, empty, loadMetadata, StorageWorld.getComponent]
  listed e t h := by cases h

theorem mirrorsFlat_spawn (h : MirrorsFlat world flat) : MirrorsFlat world.spawnEntity.2 flat.spawnEntity.2 where
  next := congrArg (· + 1) h.next
  get := h.get
  listed := by
    intro e t hthere
    have hlisted := h.listed e t hthere
    rw [typesOf_spawnEntity]
    cases hloaded : world.typesOf e with
    | some types => simpa [hloaded] using hlisted
    | none => simp [hloaded] at hlisted

theorem mirrorsFlat_add (hflat : SimpleWorld.Indexed (fun _ => .Table) flat) (h : MirrorsFlat world flat)
    (e : EntityId) (t : Symbol) (d : Bytes) :
    MirrorsFlat (world.addComponent e t d) (flat.addComponentWithStorage e t d .Table) where
  next := h.next
  get := by
    intro other u
    have hstep := hflat.getComponent_step (.addComponentWithStorage e t d .Table) rfl other u
    simp only [SimpleWorld.step, SimpleWorld.Contents.step, Function.update_apply, Prod.mk.injEq] at hstep
    rw [getComponent_addComponent, hstep, h.get]
  listed := by
    intro other u hthere
    rw [getComponent_addComponent] at hthere
    rw [typesOf_addComponent]
    split_ifs with hother
    · subst hother
      rw [Option.getD_some, mem_addType]
      by_cases hu : u = t
      · exact Or.inr hu
      · rw [if_neg fun heq => hu heq.2] at hthere
        exact Or.inl (h.listed other u hthere)
    · rw [if_neg fun heq => hother heq.1] at hthere
      exact h.listed other u hthere

theorem mirrorsFlat_remove (hflat : SimpleWorld.Indexed (fun _ => .Table) flat) (h : MirrorsFlat world flat)
    (e : EntityId) (t : Symbol) :
    MirrorsFlat (world.removeComponent e t).2 (flat.removeComponent e t).2 where
  next := by
    have hnext := SimpleWorld.nextEntityId_step flat (.removeComponent e t)
    simp only [SimpleWorld.step, SimpleWorld.Op.idsTaken, Nat.add_zero] at hnext
    rw [nextEntityId_removeComponent, hnext, h.next]
  get := by
    intro other u
    have hstep := hflat.getComponent_step (.removeComponent e t) trivial other u
    simp only [SimpleWorld.step, SimpleWorld.Contents.step, Function.update_apply, Prod.mk.injEq] at hstep
    rw [getComponent_removeComponent, hstep, h.get]
  listed := by
    intro other u hthere
    rw [getComponent_removeComponent] at hthere
    split_ifs at hthere with hsame
    · cases hthere
    · have hlisted := h.listed other u hthere
      rw [typesOf_removeComponent]
      split_ifs with hother
      · obtain ⟨rfl, _⟩ := hother
        have hu : u ≠ t := fun hu => hsame ⟨rfl, hu⟩
        cases hloaded : world.typesOf other with
        | none => simp [hloaded] at hlisted
        | some types =>
            rw [hloaded, Option.getD_some] at hlisted
            exact List.mem_filter.mpr ⟨hlisted, by simpa using hu⟩
      · exact hlisted

theorem mirrorsFlat_despawn (hflat : SimpleWorld.Indexed (fun _ => .Table) flat) (h : MirrorsFlat world flat)
    (e : EntityId) : MirrorsFlat (world.despawnEntity e) (flat.despawnEntity e) where
  next := h.next
  get := by
    intro other u
    have hstep := hflat.getComponent_step (.despawnEntity e) trivial other u
    simp only [SimpleWorld.step, SimpleWorld.Contents.step] at hstep
    rw [getComponent_despawnEntity, hstep, h.get]
  listed := by
    intro other u hthere
    rw [getComponent_despawnEntity] at hthere
    rw [typesOf_despawnEntity]
    split_ifs at hthere ⊢ with hother
    · cases hthere
    · exact h.listed other u hthere

theorem mirrorsFlat_after (calls : List Call) (hcalls : ∀ call ∈ calls, call.InMemory) :
    MirrorsFlat (run step empty calls).world (flatWorldAfter calls) := by
  induction calls using List.reverseRecOn with
  | nil => exact mirrorsFlat_empty
  | append_singleton past call ih =>
      have hpast := ih fun other hother => hcalls other (List.mem_append_left _ hother)
      have hindexed := indexed_flatWorldAfter past
      have hflat : ∀ op, call.flat = some op →
          flatWorldAfter (past ++ [call]) = (flatWorldAfter past).step op := by
        intro op hop
        simp [flatWorldAfter, List.filterMap_append, hop, SimpleWorld.worldAfter_concat]
      have hmemory := hcalls call (by simp)
      rw [run_concat]
      cases call with
      | loadMetadata => exact absurd hmemory id
      | flush =>
          have hsame : flatWorldAfter (past ++ [.flush]) = flatWorldAfter past := by
            simp [flatWorldAfter, List.filterMap_append, List.filterMap_cons, Call.flat]
          rw [hsame]
          simp only [step, flush_world]
          exact ⟨hpast.next, hpast.get, hpast.listed⟩
      | op op =>
          cases op with
          | loadEntity e => exact absurd hmemory id
          | spawnEntity =>
              rw [hflat _ rfl]
              exact mirrorsFlat_spawn hpast
          | addComponent e t d =>
              rw [hflat _ rfl]
              exact mirrorsFlat_add hindexed hpast e t d
          | removeComponent e t =>
              rw [hflat _ rfl]
              exact mirrorsFlat_remove hindexed hpast e t
          | despawnEntity e =>
              rw [hflat _ rfl]
              exact mirrorsFlat_despawn hindexed hpast e

-- The conversion shows a component that some loaded entity lists, so none is lost.
theorem MirrorsFlat.getComponent_toSimpleWorld (h : MirrorsFlat world flat) (e : EntityId) (t : Symbol) :
    world.toSimpleWorld.getComponent e t = flat.getComponent e t := by
  rw [StorageWorld.getComponent_toSimpleWorld, ← h.get]
  split_ifs with hlists
  · rfl
  · by_contra hthere
    have hlisted := h.listed e t (Option.isSome_iff_ne_none.mpr (Ne.symm hthere))
    cases hlookup : KeyedList.lookup LoadedEntity.entityId e world.loadedEntities with
    | none => simp [typesOf, hlookup] at hlisted
    | some le =>
        simp only [typesOf, hlookup, Option.map_some, Option.getD_some] at hlisted
        exact hlists ⟨le, List.mem_of_find?_eq_some hlookup, by simpa using List.find?_some hlookup, hlisted⟩

-- Callers cannot tell the two worlds apart: after every run in memory the next spawn, removal and read answer
-- alike, and so do the reads of the converted world.
theorem in_memory_as_flat (calls : List Call) (hcalls : ∀ call ∈ calls, call.InMemory) :
    let world := (run step empty calls).world
    let flat := flatWorldAfter calls
    world.spawnEntity.1 = flat.spawnEntity.1 ∧
    (∀ e t, (world.removeComponent e t).1 = (flat.removeComponent e t).1) ∧
    (∀ e t, world.getComponent e t = flat.getComponent e t) ∧
    (∀ e t, world.hasComponent e t = flat.hasComponent e t) ∧
    ∀ e t, world.toSimpleWorld.getComponent e t = flat.getComponent e t := by
  intro world flat
  have h : MirrorsFlat world flat := mirrorsFlat_after calls hcalls
  refine ⟨h.next, fun e t => ?_, h.get, fun e t => ?_, h.getComponent_toSimpleWorld⟩
  · rw [removeComponent_result, h.get, SimpleWorld.removeComponent_fst, SimpleWorld.hasComponent_eq_isSome]
  · rw [hasComponent_eq, h.get, SimpleWorld.hasComponent_eq_isSome]

-- An id that a component was added to before it is handed out is loaded twice.
theorem early_component_as_flat :
    let calls : List Call := [.op (.addComponent 1 pos [7]), .flush, .op .spawnEntity]
    (run step empty calls).world.toSimpleWorld.getComponent 1 pos = (flatWorldAfter calls).getComponent 1 pos :=
  (in_memory_as_flat [.op (.addComponent 1 pos [7]), .flush, .op .spawnEntity] (by decide)).2.2.2.2 1 pos

end Host

end Cougr
