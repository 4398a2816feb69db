import Cougr.ArchetypeWorld.Invariant

namespace Cougr.ArchetypeWorld

variable {world : ArchetypeWorld} {e : EntityId} {id : ArchetypeId} {arch : Archetype} {t : Symbol}

-- The counters of the world take no part in the invariant.
theorem WellFormed.withVersion (h : WellFormed world) (version : Nat) :
    WellFormed { world with version } :=
  ⟨h.archetypes, h.index, h.homes⟩

section Extract

-- What leaves the archetype with the entity is what the world reads for it.
theorem get_extracted (h : WellFormed world) (hhome : world.entityArchetype.get e = some id)
    (harch : world.archetypes.get id = some arch) (t : Symbol) :
    (arch.removeEntity e).1.get t = world.getComponent e t := by
  have hfits := h.archetypes id arch harch
  have hread : world.getComponent e t = arch.data.get (e, t) := by
    rw [getComponent_eq, archetypeOf, hhome, Option.bind_some, harch, Option.bind_some]
  rw [Archetype.get_removeEntity, hread]
  split_ifs with ht
  · rfl
  · symm
    rw [← Option.not_isSome_iff_eq_none, hfits.stored]
    exact fun hin => ht hin.2

-- In the archetype of an entity the listed types are the ones it has.
theorem isSome_getComponent_iff (h : WellFormed world) (hhome : world.entityArchetype.get e = some id)
    (harch : world.archetypes.get id = some arch) (t : Symbol) :
    (world.getComponent e t).isSome ↔ t ∈ arch.componentTypes := by
  rw [← h.hasComponent_eq_isSome, hasComponent_iff, archetypeOf, hhome, Option.bind_some, harch]
  simp

theorem getComponent_of_homeless (hhome : world.entityArchetype.get e = none) (t : Symbol) :
    world.getComponent e t = none := by
  rw [getComponent_eq, archetypeOf, hhome, Option.bind_none, Option.bind_none]

-- One component of one entity changes.
theorem update_getComponent (value : Option Bytes) (other : EntityId) (u : Symbol) :
    (if other = e then Function.update (world.getComponent e) t value u else world.getComponent other u) =
      if (other, u) = (e, t) then value else world.getComponent other u := by
  by_cases hother : other = e
  · simp only [hother, if_true, Prod.mk.injEq, true_and, Function.update_apply]
  · simp only [hother, if_false, Prod.mk.injEq, false_and]

-- Leaving one archetype for another, with other contents.
theorem wellFormed_migrate {types : List Symbol} {contents : Symbol → Option Bytes}
    {fill : Archetype → Archetype} (h : WellFormed world) (hhome : world.entityArchetype.get e = some id)
    (harch : world.archetypes.get id = some arch) (hnonempty : types ≠ [])
    (hsorted : types.Pairwise (· < ·)) (hfill : Archetype.Fills e contents fill)
    (hcontents : ∀ t, (contents t).isSome ↔ t ∈ types) :
    WellFormed ({ world with archetypes := world.archetypes.set id (arch.removeEntity e).2 }.enterArchetype
      e types fill) := by
  rw [← enterArchetype_erase]
  exact wellFormed_enterArchetype (wellFormed_leaveArchetype h hhome harch) (Map.get_erase_self ..)
    hnonempty hsorted hfill hcontents

theorem getComponent_migrate {types : List Symbol} {contents : Symbol → Option Bytes}
    {fill : Archetype → Archetype} (h : WellFormed world) (hhome : world.entityArchetype.get e = some id)
    (harch : world.archetypes.get id = some arch) (hnonempty : types ≠ [])
    (hsorted : types.Pairwise (· < ·)) (hfill : Archetype.Fills e contents fill)
    (other : EntityId) (u : Symbol) :
    ({ world with archetypes := world.archetypes.set id (arch.removeEntity e).2 }.enterArchetype
      e types fill).getComponent other u = if other = e then contents u else world.getComponent other u := by
  rw [← enterArchetype_erase]
  have henter := getComponent_enterArchetype (wellFormed_leaveArchetype h hhome harch)
    (Map.get_erase_self ..) hnonempty hsorted hfill other u
  rw [getComponent_leaveArchetype harch] at henter
  refine henter.trans ?_
  split_ifs <;> rfl

end Extract

section Add

variable (d : Bytes)

-- The three ways of an addition: into a first archetype, in place, into another archetype.
theorem addComponent_of_homeless (hhome : world.entityArchetype.get e = none) :
    world.addComponent e t d = { world with version := world.version + 1 }.enterArchetype e [t]
      fun arch => arch.setComponent e t d := by
  simp only [addComponent, hhome]

theorem addComponent_of_listed (hhome : world.entityArchetype.get e = some id)
    (harch : world.archetypes.get id = some arch) (ht : t ∈ arch.componentTypes) :
    world.addComponent e t d = { world with
      version := world.version + 1
      archetypes := world.archetypes.set id (arch.setComponent e t d) } := by
  have hlisted : arch.hasComponentType t := (arch.hasComponentType_iff t).mpr ht
  simp only [addComponent, hhome, harch, hlisted, if_true]

theorem addComponent_of_unlisted (hhome : world.entityArchetype.get e = some id)
    (harch : world.archetypes.get id = some arch) (ht : t ∉ arch.componentTypes) :
    world.addComponent e t d = { world with
      version := world.version + 1
      archetypes := world.archetypes.set id (arch.removeEntity e).2 }.enterArchetype e
        (buildNewTypes arch.componentTypes t)
        fun target => target.copyExtracted e ((arch.removeEntity e).1.set t d) := by
  have hunlisted : ¬arch.hasComponentType t := fun h => ht ((arch.hasComponentType_iff t).mp h)
  simp only [addComponent, hhome, harch, hunlisted, Bool.false_eq_true, if_false]

theorem wellFormed_setComponent (h : WellFormed world) (hhome : world.entityArchetype.get e = some id)
    (harch : world.archetypes.get id = some arch) (ht : t ∈ arch.componentTypes) :
    WellFormed { world with archetypes := world.archetypes.set id (arch.setComponent e t d) } := by
  have hfits := h.archetypes id arch harch
  have hset : ArchetypeFits world.archetypeIndex world.entityArchetype world.nextArchetypeId id
      (arch.setComponent e t d) := by
    refine { hfits with stored := fun member u => ?_ }
    rw [Archetype.data_setComponent]
    split_ifs with hkey
    · obtain ⟨rfl, rfl⟩ := Prod.ext_iff.mp hkey
      have hmember : member ∈ arch.entities := (hfits.members member).mpr hhome
      exact iff_of_true rfl ⟨hmember, ht⟩
    · exact hfits.stored member u
  apply wellFormed_replace h harch hset rfl
  · intro other _ arch' hget
    exact h.archetypes other arch' hget
  · intro member other hmember
    exact Or.inr hmember

theorem getComponent_setComponent (hhome : world.entityArchetype.get e = some id)
    (harch : world.archetypes.get id = some arch) (other : EntityId) (u : Symbol) :
    { world with archetypes := world.archetypes.set id (arch.setComponent e t d) }.getComponent other u =
      if (other, u) = (e, t) then some d else world.getComponent other u := by
  simp only [getComponent_eq, archetypeOf]
  cases hother : world.entityArchetype.get other with
  | none =>
      have hne : (other, u) ≠ (e, t) := by
        intro hkey
        obtain ⟨rfl, _⟩ := Prod.ext_iff.mp hkey
        rw [hhome] at hother
        cases hother
      simp [hne]
  | some otherId =>
      simp only [Option.bind_some, Map.get_set]
      split_ifs with hid hkey hkey
      · simp [Archetype.data_setComponent, hkey]
      · simp [Archetype.data_setComponent, hkey, hid, harch]
      · obtain ⟨rfl, rfl⟩ := Prod.ext_iff.mp hkey
        rw [hhome] at hother
        exact absurd (Option.some.inj hother).symm hid
      · rfl

-- The data that an addition carries over, with the new component.
theorem fills_add (h : WellFormed world) (hhome : world.entityArchetype.get e = some id)
    (harch : world.archetypes.get id = some arch) :
    Archetype.Fills e (Function.update (world.getComponent e) t (some d))
      fun target => target.copyExtracted e ((arch.removeEntity e).1.set t d) := by
  have hget : ((arch.removeEntity e).1.set t d).get = Function.update (world.getComponent e) t (some d) := by
    funext u
    rw [Map.get_set, get_extracted h hhome harch, Function.update_apply]
  exact hget ▸ Archetype.fills_copyExtracted e _

theorem addComponent_spec (h : WellFormed world) (e : EntityId) (t : Symbol) :
    WellFormed (world.addComponent e t d) ∧ ∀ other u, (world.addComponent e t d).getComponent other u =
      if (other, u) = (e, t) then some d else world.getComponent other u := by
  have hbumped := h.withVersion (world.version + 1)
  cases hhome : world.entityArchetype.get e with
  | none =>
      have hnonempty := List.cons_ne_nil t []
      have hsorted := List.pairwise_singleton (· < ·) t
      have hfill := Archetype.fills_setComponent e t d
      rw [addComponent_of_homeless d hhome]
      constructor
      · apply wellFormed_enterArchetype hbumped hhome hnonempty hsorted hfill
        intro u
        rw [List.mem_singleton]
        split_ifs with hu <;> simp [hu]
      · intro other u
        rw [getComponent_enterArchetype hbumped hhome hnonempty hsorted hfill]
        by_cases hother : other = e
        · simp only [hother, if_true, Prod.mk.injEq, true_and, getComponent_of_homeless hhome]
        · simp only [hother, if_false, Prod.mk.injEq, false_and]
          rfl
  | some id =>
      obtain ⟨arch, harch, _⟩ := h.archetypeOf_eq hhome
      by_cases ht : t ∈ arch.componentTypes
      · rw [addComponent_of_listed d hhome harch ht]
        exact ⟨wellFormed_setComponent d hbumped hhome harch ht, getComponent_setComponent d hhome harch⟩
      · have hmem : ∀ u, (Function.update (world.getComponent e) t (some d) u).isSome ↔
            u ∈ buildNewTypes arch.componentTypes t := by
          intro u
          rw [mem_buildNewTypes, Function.update_apply]
          split_ifs with hu
          · simp [hu]
          · simp [hu, isSome_getComponent_iff h hhome harch]
        have hnonempty : buildNewTypes arch.componentTypes t ≠ [] :=
          List.ne_nil_of_mem ((mem_buildNewTypes _ t t).mpr (Or.inr rfl))
        have hsorted := sorted_buildNewTypes (h.archetypes id arch harch).sorted ht
        have hfill := fills_add (t := t) d h hhome harch
        rw [addComponent_of_unlisted d hhome harch ht]
        refine ⟨wellFormed_migrate hbumped hhome harch hnonempty hsorted hfill hmem, fun other u => ?_⟩
        rw [← update_getComponent]
        exact getComponent_migrate hbumped hhome harch hnonempty hsorted hfill other u

end Add

section Remove

-- A removal of a component that is not there changes nothing; the archetype of the entity, if it
-- has one, does not list the type.
theorem removeComponent_of_absent (h : WellFormed world) (habsent : world.getComponent e t = none) :
    world.removeComponent e t = (false, world) := by
  cases hhome : world.entityArchetype.get e with
  | none => simp only [removeComponent, hhome]
  | some id =>
      obtain ⟨arch, harch, _⟩ := h.archetypeOf_eq hhome
      have hunlisted : arch.hasComponentType t = false := by
        rw [← Bool.not_eq_true, Archetype.hasComponentType_iff, ← isSome_getComponent_iff h hhome harch,
          habsent]
        exact Bool.false_ne_true
      simp [removeComponent, hhome, harch, hunlisted]

theorem removeComponent_of_last (hhome : world.entityArchetype.get e = some id)
    (harch : world.archetypes.get id = some arch) (ht : t ∈ arch.componentTypes)
    (hlast : arch.componentTypes.filter (· ≠ t) = []) :
    world.removeComponent e t =
      (true, { world with version := world.version + 1 }.leaveArchetype e id arch) := by
  have hlisted : arch.hasComponentType t := (arch.hasComponentType_iff t).mpr ht
  simp only [removeComponent, hhome, harch, hlisted, hlast, not_true_eq_false, if_false, List.isEmpty_nil,
    if_true]
  rfl

theorem removeComponent_of_others (hhome : world.entityArchetype.get e = some id)
    (harch : world.archetypes.get id = some arch) (ht : t ∈ arch.componentTypes)
    (hothers : arch.componentTypes.filter (· ≠ t) ≠ []) :
    world.removeComponent e t = (true, { world with
      version := world.version + 1
      archetypes := world.archetypes.set id (arch.removeEntity e).2 }.enterArchetype e
        (arch.componentTypes.filter (· ≠ t))
        fun target => target.copyExtracted e ((arch.removeEntity e).1.erase t)) := by
  have hlisted : arch.hasComponentType t := (arch.hasComponentType_iff t).mpr ht
  have hnonempty : (arch.componentTypes.filter (· ≠ t)).isEmpty = false := by
    rw [← Bool.not_eq_true, List.isEmpty_iff]
    exact hothers
  simp only [removeComponent, hhome, harch, hlisted, hnonempty, not_true_eq_false, if_false,
    Bool.false_eq_true]

theorem fills_remove (h : WellFormed world) (hhome : world.entityArchetype.get e = some id)
    (harch : world.archetypes.get id = some arch) :
    Archetype.Fills e (Function.update (world.getComponent e) t none)
      fun target => target.copyExtracted e ((arch.removeEntity e).1.erase t) := by
  have hget : ((arch.removeEntity e).1.erase t).get = Function.update (world.getComponent e) t none := by
    funext u
    rw [Map.get_erase, get_extracted h hhome harch, Function.update_apply]
  exact hget ▸ Archetype.fills_copyExtracted e _

-- Whatever else is asked of an entity whose only component went is not there either.
theorem removeComponent_spec_of_last (h : WellFormed world) (hhome : world.entityArchetype.get e = some id)
    (harch : world.archetypes.get id = some arch) (ht : t ∈ arch.componentTypes)
    (hlast : arch.componentTypes.filter (· ≠ t) = []) :
    WellFormed (world.removeComponent e t).2 ∧ ∀ other u, (world.removeComponent e t).2.getComponent other u =
      if (other, u) = (e, t) then none else world.getComponent other u := by
  have hbumped := h.withVersion (world.version + 1)
  rw [removeComponent_of_last hhome harch ht hlast]
  refine ⟨wellFormed_leaveArchetype hbumped hhome harch, fun other u => ?_⟩
  refine (@getComponent_leaveArchetype { world with version := world.version + 1 } e id arch
    harch other u).trans ?_
  by_cases hother : other = e
  · have hgone : u ≠ t → world.getComponent e u = none := by
      intro hu
      rw [← Option.not_isSome_iff_eq_none, isSome_getComponent_iff h hhome harch]
      intro hin
      exact List.not_mem_nil (hlast ▸ List.mem_filter.mpr ⟨hin, by simpa using hu⟩)
    by_cases hu : u = t
    · simp [hother, hu]
    · simp [hother, hu, hgone hu]
  · simp only [hother, if_false, Prod.mk.injEq, false_and]
    rfl

theorem removeComponent_spec_of_others (h : WellFormed world) (hhome : world.entityArchetype.get e = some id)
    (harch : world.archetypes.get id = some arch) (ht : t ∈ arch.componentTypes)
    (hothers : arch.componentTypes.filter (· ≠ t) ≠ []) :
    WellFormed (world.removeComponent e t).2 ∧ ∀ other u, (world.removeComponent e t).2.getComponent other u =
      if (other, u) = (e, t) then none else world.getComponent other u := by
  have hbumped := h.withVersion (world.version + 1)
  have hmem : ∀ u, (Function.update (world.getComponent e) t none u).isSome ↔
      u ∈ arch.componentTypes.filter (· ≠ t) := by
    intro u
    rw [List.mem_filter, Function.update_apply]
    split_ifs with hu
    · simp [hu]
    · simp [hu, isSome_getComponent_iff h hhome harch]
  have hsorted := (h.archetypes id arch harch).sorted.filter (· ≠ t)
  have hfill := fills_remove (t := t) h hhome harch
  rw [removeComponent_of_others hhome harch ht hothers]
  dsimp only
  refine ⟨wellFormed_migrate hbumped hhome harch hothers hsorted hfill hmem, fun other u => ?_⟩
  rw [← update_getComponent]
  exact getComponent_migrate hbumped hhome harch hothers hsorted hfill other u

theorem removeComponent_spec (h : WellFormed world) (e : EntityId) (t : Symbol) :
    (world.removeComponent e t).1 = (world.getComponent e t).isSome ∧
    WellFormed (world.removeComponent e t).2 ∧
    ∀ other u, (world.removeComponent e t).2.getComponent other u =
      if (other, u) = (e, t) then none else world.getComponent other u := by
  cases hread : world.getComponent e t with
  | none =>
      rw [removeComponent_of_absent h hread]
      refine ⟨rfl, h, fun other u => ?_⟩
      split_ifs with hkey
      · obtain ⟨rfl, rfl⟩ := Prod.ext_iff.mp hkey
        exact hread
      · rfl
  | some old =>
      cases hhome : world.entityArchetype.get e with
      | none =>
          rw [getComponent_of_homeless hhome] at hread
          cases hread
      | some id =>
          obtain ⟨arch, harch, _⟩ := h.archetypeOf_eq hhome
          have ht : t ∈ arch.componentTypes := by
            rw [← isSome_getComponent_iff h hhome harch, hread]
            rfl
          by_cases hlast : arch.componentTypes.filter (· ≠ t) = []
          · refine ⟨?_, removeComponent_spec_of_last h hhome harch ht hlast⟩
            rw [removeComponent_of_last hhome harch ht hlast]
            rfl
          · refine ⟨?_, removeComponent_spec_of_others h hhome harch ht hlast⟩
            rw [removeComponent_of_others hhome harch ht hlast]
            rfl

end Remove

section Despawn

theorem despawnEntity_of_homeless (hhome : world.entityArchetype.get e = none) :
    world.despawnEntity e = { world with version := world.version + 1 } := by
  simp only [despawnEntity, hhome]

theorem despawnEntity_of_home (hhome : world.entityArchetype.get e = some id)
    (harch : world.archetypes.get id = some arch) :
    world.despawnEntity e = { world with version := world.version + 1 }.leaveArchetype e id arch := by
  simp only [despawnEntity, hhome, harch]
  rfl

theorem despawnEntity_spec (h : WellFormed world) (e : EntityId) :
    WellFormed (world.despawnEntity e) ∧ ∀ other u, (world.despawnEntity e).getComponent other u =
      if other = e then none else world.getComponent other u := by
  have hbumped := h.withVersion (world.version + 1)
  cases hhome : world.entityArchetype.get e with
  | none =>
      rw [despawnEntity_of_homeless hhome]
      refine ⟨hbumped, fun other u => ?_⟩
      split_ifs with hother
      · rw [hother]
        exact getComponent_of_homeless hhome u
      · rfl
  | some id =>
      obtain ⟨arch, harch, _⟩ := h.archetypeOf_eq hhome
      rw [despawnEntity_of_home hhome harch]
      exact ⟨wellFormed_leaveArchetype hbumped hhome harch, getComponent_leaveArchetype harch⟩

end Despawn

section Run

theorem wellFormed_step (h : WellFormed world) (op : Op) : WellFormed (world.step op) := by
  cases op with
  | spawnEntity => exact ⟨h.archetypes, h.index, h.homes⟩
  | addComponent e t d => exact (addComponent_spec d h e t).1
  | removeComponent e t => exact (removeComponent_spec h e t).2.1
  | despawnEntity e => exact (despawnEntity_spec h e).1

theorem invariant_worldAfter (ops : List Op) : WellFormed (worldAfter ops) :=
  Transition.run_invariant_of_step WellFormed (fun _ op h => wellFormed_step h op) wellFormed_new ops

-- The index has one archetype for each list of types, and a sorted list is fixed by its members.
theorem sameArchetype_iff (h : WellFormed world) (e e' : EntityId) :
    (∃ id, world.entityArchetype.get e = some id ∧ world.entityArchetype.get e' = some id) ↔
      (∃ t, world.hasComponent e t) ∧ ∀ t, world.hasComponent e t ↔ world.hasComponent e' t := by
  have hhas : ∀ {e id arch}, world.entityArchetype.get e = some id → world.archetypes.get id = some arch →
      ∀ t, world.hasComponent e t ↔ t ∈ arch.componentTypes := by
    intro e id arch hhome harch t
    rw [h.hasComponent_eq_isSome, isSome_getComponent_iff h hhome harch]
  have hhome_of_has : ∀ {e t}, world.hasComponent e t → ∃ id, world.entityArchetype.get e = some id := by
    intro e t ht
    rw [h.hasComponent_eq_isSome] at ht
    cases hhome : world.entityArchetype.get e with
    | none => simp [getComponent_of_homeless hhome] at ht
    | some id => exact ⟨id, rfl⟩
  constructor
  · intro hshared
    obtain ⟨id, hhome, hhome'⟩ := hshared
    obtain ⟨arch, harch, _⟩ := h.archetypeOf_eq hhome
    obtain ⟨t, ht⟩ := List.exists_mem_of_ne_nil _ (h.archetypes id arch harch).nonempty
    exact ⟨⟨t, (hhas hhome harch t).mpr ht⟩, fun u => by rw [hhas hhome harch, hhas hhome' harch]⟩
  · intro htypes
    obtain ⟨⟨t, ht⟩, hsame⟩ := htypes
    obtain ⟨id, hhome⟩ := hhome_of_has ht
    obtain ⟨id', hhome'⟩ := hhome_of_has ((hsame t).mp ht)
    obtain ⟨arch, harch, _⟩ := h.archetypeOf_eq hhome
    obtain ⟨arch', harch', _⟩ := h.archetypeOf_eq hhome'
    have hfits := h.archetypes id arch harch
    have hfits' := h.archetypes id' arch' harch'
    have htypes : arch.componentTypes = arch'.componentTypes := by
      apply hfits.sorted.eq_of_mem_iff hfits'.sorted
      intro u
      rw [← hhas hhome harch, hsame, hhas hhome' harch']
    have hindexed := hfits.indexed
    rw [htypes, hfits'.indexed] at hindexed
    exact ⟨id, hhome, hindexed ▸ hhome'⟩

-- The tables, the index and the homes of the entities fit together after every run, so that
-- entities share an archetype exactly when they have the same types, at least one.
theorem wellFormed_worldAfter (ops : List Op) : WellFormed (worldAfter ops) ∧ ∀ e e',
    (∃ id, (worldAfter ops).entityArchetype.get e = some id ∧
      (worldAfter ops).entityArchetype.get e' = some id) ↔
    (∃ t, (worldAfter ops).hasComponent e t) ∧
      ∀ t, (worldAfter ops).hasComponent e t ↔ (worldAfter ops).hasComponent e' t :=
  ⟨invariant_worldAfter ops, sameArchetype_iff (invariant_worldAfter ops)⟩

end Run

end Cougr.ArchetypeWorld
