import Cougr.Zk.Systems

namespace Cougr.Zk

open SimpleWorld

section Maps

-- The two maps of the worlds agree on one component.
structure Alike (first second : SimpleWorld) (e : EntityId) (t : Symbol) : Prop where
  table : first.components.get (e, t) = second.components.get (e, t)
  sparse : first.sparseComponents.get (e, t) = second.sparseComponents.get (e, t)

variable {first second third : SimpleWorld} {e : EntityId} {t : Symbol}

theorem Alike.refl (world : SimpleWorld) (e : EntityId) (t : Symbol) : Alike world world e t := ⟨rfl, rfl⟩

theorem Alike.symm (h : Alike first second e t) : Alike second first e t := ⟨h.table.symm, h.sparse.symm⟩

theorem Alike.trans (h : Alike first second e t) (h' : Alike second third e t) : Alike first third e t :=
  ⟨h.table.trans h'.table, h.sparse.trans h'.sparse⟩

theorem Alike.getComponent_eq (h : Alike first second e t) : first.getComponent e t =
    second.getComponent e t := by
  rw [getComponent, h.table, h.sparse, getComponent]

-- What a removal leaves of the component is settled by what the maps held of it.
theorem Alike.removeComponent (h : Alike first second e t) :
    Alike (first.removeComponent e t).2 (second.removeComponent e t).2 e t := by
  constructor
  · rw [removeComponent_components, removeComponent_components, Map.get_erase_self, Map.get_erase_self]
  · rw [removeComponent_sparseComponents, removeComponent_sparseComponents, Map.containsKey_eq_isSome,
      Map.containsKey_eq_isSome, h.table]
    split_ifs
    · exact h.sparse
    · rw [Map.get_erase_self, Map.get_erase_self]

theorem alike_removeComponent_of_ne (world : SimpleWorld) {e other : EntityId} {t u : Symbol}
    (hne : (other, u) ≠ (e, t)) : Alike (world.removeComponent e t).2 world other u := by
  constructor
  · rw [removeComponent_components, Map.get_erase, if_neg hne]
  · rw [removeComponent_sparseComponents]
    split_ifs
    · rfl
    · rw [Map.get_erase, if_neg hne]

end Maps

section Sweep

variable {t : Symbol} {expired : Bytes → Option Bool} {world swept : SimpleWorld} {entities : List EntityId}

-- The data of the entity, if there are any, can be decoded.
def Readable (t : Symbol) (expired : Bytes → Option Bool) (world : SimpleWorld) (e : EntityId) : Prop :=
  ∀ data, world.getComponent e t = some data → (expired data).isSome

def Expired (t : Symbol) (expired : Bytes → Option Bool) (world : SimpleWorld) (e : EntityId) : Prop :=
  ∃ data, world.getComponent e t = some data ∧ expired data = some true

-- The component is removed from the expired ones among the entities, and nothing else happens.
structure Sweeps (t : Symbol) (expired : Bytes → Option Bool) (entities : List EntityId)
    (world swept : SimpleWorld) : Prop where
  removed : ∀ e ∈ entities, Expired t expired world e → Alike swept (world.removeComponent e t).2 e t
  kept : ∀ e u, ¬(u = t ∧ e ∈ entities ∧ Expired t expired world e) → Alike swept world e u

theorem readable_congr {other : SimpleWorld} {e : EntityId} (h : Alike world other e t) :
    Readable t expired world e ↔ Readable t expired other e := by
  rw [Readable, h.getComponent_eq, Readable]

theorem expired_congr {other : SimpleWorld} {e : EntityId} (h : Alike world other e t) :
    Expired t expired world e ↔ Expired t expired other e := by
  rw [Expired, h.getComponent_eq, Expired]

-- A turn traps on data that cannot be decoded, and on nothing else.
theorem isSome_sweepEntity_iff (e : EntityId) :
    (sweepEntity t expired world e).isSome ↔ Readable t expired world e := by
  cases hdata : world.getComponent e t with
  | none => simp [sweepEntity, Readable, hdata]
  | some data =>
      cases hexpired : expired data with
      | none => simp [sweepEntity, Readable, hdata, hexpired]
      | some answer => cases answer <;> simp [sweepEntity, Readable, hdata, hexpired]

-- A turn that ends removes the component or does nothing.
theorem sweepEntity_cases {e : EntityId} {next : SimpleWorld}
    (hturn : sweepEntity t expired world e = some next) :
    (Expired t expired world e ∧ next = (world.removeComponent e t).2) ∨
      (¬Expired t expired world e ∧ next = world) := by
  cases hdata : world.getComponent e t with
  | none =>
      rw [sweepEntity, hdata] at hturn
      exact Or.inr ⟨by simp [Expired, hdata], (Option.some.inj hturn).symm⟩
  | some data =>
      cases hexpired : expired data with
      | none => simp [sweepEntity, hdata, hexpired] at hturn
      | some answer =>
          have hnext := hturn.symm
          simp only [sweepEntity, hdata, hexpired, Option.bind_eq_bind, Option.bind_some] at hnext
          cases answer with
          | true => exact Or.inl ⟨⟨data, hdata, hexpired⟩, Option.some.inj hnext⟩
          | false => exact Or.inr ⟨by simp [Expired, hdata, hexpired], Option.some.inj hnext⟩

-- A turn for one entity does not touch the components of the others.
theorem alike_sweepEntity {e other : EntityId} (hne : other ≠ e)
    (hturn : sweepEntity t expired world e = some swept) (u : Symbol) : Alike swept world other u := by
  rcases sweepEntity_cases hturn with ⟨_, rfl⟩ | ⟨_, rfl⟩
  · exact alike_removeComponent_of_ne world fun heq => hne (Prod.mk.inj heq).1
  · exact Alike.refl ..

theorem sweeps_cons {e : EntityId} {next : SimpleWorld} (hnodup : (e :: entities).Nodup)
    (hturn : sweepEntity t expired world e = some next) (hrest : Sweeps t expired entities next swept) :
    Sweeps t expired (e :: entities) world swept := by
  have hhead : e ∉ entities := (List.nodup_cons.mp hnodup).1
  have hothers : ∀ other, other ≠ e → ∀ u, Alike next world other u :=
    fun other hne u => alike_sweepEntity hne hturn u
  have hafter : ∀ u, Alike swept next e u := fun u => hrest.kept e u fun h => hhead h.2.1
  constructor
  · intro other hother hexpired
    by_cases hsame : other = e
    · subst hsame
      rcases sweepEntity_cases hturn with ⟨_, rfl⟩ | ⟨hfresh, _⟩
      · exact hafter t
      · exact absurd hexpired hfresh
    · have hmem : other ∈ entities := (List.mem_cons.mp hother).resolve_left hsame
      have hnext := hothers other hsame t
      exact (hrest.removed other hmem ((expired_congr hnext).mpr hexpired)).trans hnext.removeComponent
  · intro other u hkept
    by_cases hsame : other = e
    · subst hsame
      apply (hafter u).trans
      rcases sweepEntity_cases hturn with ⟨hexpired, rfl⟩ | ⟨_, rfl⟩
      · apply alike_removeComponent_of_ne
        exact fun heq => hkept ⟨(Prod.mk.inj heq).2, List.mem_cons_self, hexpired⟩
      · exact Alike.refl ..
    · have hnext := hothers other hsame
      refine (hrest.kept other u fun h => hkept ⟨h.1, List.mem_cons_of_mem _ h.2.1, ?_⟩).trans (hnext u)
      exact (expired_congr (hnext t)).mp h.2.2

-- The loop ends when the data of all entities can be decoded, and then has done what it should.
theorem sweeps_foldlM (hnodup : entities.Nodup) (hreadable : ∀ e ∈ entities, Readable t expired world e) :
    ∃ swept, entities.foldlM (sweepEntity t expired) world = some swept ∧
    Sweeps t expired entities world swept := by
  induction entities generalizing world with
  | nil => exact ⟨world, rfl, by simp, fun e u _ => Alike.refl world e u⟩
  | cons e entities ih =>
      obtain ⟨hhead, htail⟩ := List.forall_mem_cons.mp hreadable
      obtain ⟨hnew, hnodup'⟩ := List.nodup_cons.mp hnodup
      obtain ⟨next, hturn⟩ := Option.isSome_iff_exists.mp ((isSome_sweepEntity_iff e).mpr hhead)
      have hnext : ∀ other ∈ entities, Readable t expired next other := by
        intro other hother
        have hne : other ≠ e := fun heq => hnew (heq ▸ hother)
        exact (readable_congr (alike_sweepEntity hne hturn t)).mpr (htail other hother)
      obtain ⟨swept, hloop, hsweeps⟩ := ih hnodup' hnext
      refine ⟨swept, ?_, sweeps_cons hnodup hturn hsweeps⟩
      rw [List.foldlM_cons, hturn]
      exact hloop

theorem readable_of_foldlM (hnodup : entities.Nodup)
    (hloop : (entities.foldlM (sweepEntity t expired) world).isSome) : ∀ e ∈ entities,
    Readable t expired world e := by
  induction entities generalizing world with
  | nil => simp
  | cons e entities ih =>
      obtain ⟨hnew, hnodup'⟩ := List.nodup_cons.mp hnodup
      rw [List.foldlM_cons] at hloop
      cases hturn : sweepEntity t expired world e with
      | none =>
          rw [hturn] at hloop
          cases hloop
      | some next =>
          rw [hturn] at hloop
          refine List.forall_mem_cons.mpr ⟨?_, fun other hother => ?_⟩
          · exact (isSome_sweepEntity_iff e).mp (by rw [hturn]; rfl)
          · have hne : other ≠ e := fun heq => hnew (heq ▸ hother)
            exact (readable_congr (alike_sweepEntity hne hturn t)).mp (ih hnodup' hloop other hother)

theorem nodup_getEntitiesWithComponent (world : SimpleWorld) (t : Symbol) :
    (world.getEntitiesWithComponent t).Nodup := (Map.nodup_keys _).filter _

theorem sweep_spec (hreadable : ∀ e ∈ world.getEntitiesWithComponent t, Readable t expired world e) :
    ∃ swept, sweep t expired world = some swept ∧
      Sweeps t expired (world.getEntitiesWithComponent t) world swept :=
  sweeps_foldlM (nodup_getEntitiesWithComponent world t) hreadable

-- One component that cannot be decoded anywhere in the walk is enough for a trap.
theorem isSome_sweep_iff (t : Symbol) (expired : Bytes → Option Bool) (world : SimpleWorld) :
    (sweep t expired world).isSome ↔ ∀ e ∈ world.getEntitiesWithComponent t, Readable t expired world e := by
  constructor
  · exact readable_of_foldlM (nodup_getEntitiesWithComponent world t)
  · intro hreadable
    obtain ⟨swept, hswept, _⟩ := sweep_spec hreadable
    rw [hswept]
    rfl

end Sweep

end Cougr.Zk
