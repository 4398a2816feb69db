import Cougr.SimpleWorld.Queries

namespace Cougr.SimpleWorld

section Doubled

variable {world : SimpleWorld} {e : EntityId} {t : Symbol}

theorem hasComponent_of_doubled (h : world.Doubled e t) : world.hasComponent e t := by
  rw [hasComponent_eq_isSome, getComponent, Option.isSome_or, h.1, Bool.true_or]

theorem getComponent_remove_self : (world.removeComponent e t).2.getComponent e t =
    if (world.components.get (e, t)).isSome then world.sparseComponents.get (e, t) else none := by
  rw [getComponent, removeComponent_components, removeComponent_sparseComponents, Map.containsKey_eq_isSome]
  split_ifs <;> simp

theorem getComponent_despawn_self : (world.despawnEntity e).getComponent e t =
    if t ∈ world.types e then none else world.getComponent e t := by
  rw [getComponent, get_components_despawn, get_sparseComponents_despawn]
  by_cases hlisted : t ∈ world.types e
  · simp [hlisted]
  · simp [hlisted, getComponent]

end Doubled

section Presence

variable (world : SimpleWorld) (e other : EntityId) (t u : Symbol)

-- What each operation leaves of the components, whatever the two maps hold.

theorem hasComponent_add (data : Bytes) (storage : ComponentStorage) :
    (world.addComponentWithStorage e t data storage).hasComponent other u ↔
      world.hasComponent other u ∨ (other = e ∧ u = t) := by
  simp only [hasComponent_eq_isSome, getComponent, get_components_add, get_sparseComponents_add, Prod.mk.injEq]
  by_cases hkey : other = e ∧ u = t
  · cases storage <;> simp [hkey]
  · simp [hkey]

theorem hasComponent_remove : (world.removeComponent e t).2.hasComponent other u ↔
    if (other, u) = (e, t) then world.Doubled e t else world.hasComponent other u := by
  rw [hasComponent_eq_isSome, hasComponent_eq_isSome]
  split_ifs with hkey
  · obtain ⟨rfl, rfl⟩ := Prod.mk.inj hkey
    rw [getComponent_remove_self, Doubled]
    split_ifs with htable
    · exact (and_iff_right htable).symm
    · exact iff_of_false (by simp) fun hdoubled => htable hdoubled.1
  · have htarget : ¬Op.Targets (.removeComponent e t) other u := fun hsame => hkey (Prod.ext hsame.1 hsame.2)
    have hsame := getComponent_step_of_not_targets world (.removeComponent e t) other u htarget
    rw [← hsame]
    rfl

theorem hasComponent_despawn : (world.despawnEntity e).hasComponent other u ↔
    world.hasComponent other u ∧ ¬(other = e ∧ u ∈ world.types e) := by
  simp only [hasComponent_eq_isSome, getComponent, get_components_despawn, get_sparseComponents_despawn]
  by_cases hlisted : other = e ∧ u ∈ world.types e
  · simp [hlisted]
  · simp [hlisted]

end Presence

def Op.Within (types : List Symbol) : Op → Prop
  | .spawnEntity => True
  | .addComponentWithStorage _ componentType _ _ => componentType ∈ types
  | .removeComponent _ componentType => componentType ∈ types
  | .despawnEntity _ => True

instance (types : List Symbol) : DecidablePred (Op.Within types)
  | .spawnEntity => inferInstanceAs (Decidable True)
  | .addComponentWithStorage _ _ _ _ => inferInstanceAs (Decidable (_ ∈ _))
  | .removeComponent _ _ => inferInstanceAs (Decidable (_ ∈ _))
  | .despawnEntity _ => inferInstanceAs (Decidable True)

-- The type lists name components that are there, each once; the converse needs one kind for a type.
structure ListsPresent (types : List Symbol) (world : SimpleWorld) : Prop where
  present : ∀ e t, t ∈ world.types e → world.hasComponent e t
  nodup : ∀ e, (world.types e).Nodup
  within : ∀ e t, t ∈ world.types e → t ∈ types

variable {types : List Symbol} {world : SimpleWorld}

theorem listsPresent_new (types : List Symbol) : ListsPresent types new where
  present e t h := by simp [new, SimpleWorld.types] at h
  nodup e := by simp [new, SimpleWorld.types]
  within e t h := by simp [new, SimpleWorld.types] at h

theorem listsPresent_add (h : ListsPresent types world) (e : EntityId) {t : Symbol} (ht : t ∈ types)
    (data : Bytes)
    (storage : ComponentStorage) : ListsPresent types (world.addComponentWithStorage e t data storage) where
  present other u hu := by
    rw [hasComponent_add]
    exact ((mem_types_add ..).mp hu).imp (h.present other u) id
  nodup other := by
    by_cases hother : other = e
    · subst hother
      rw [types_add_self]
      split_ifs with hmem
      · exact h.nodup other
      · rw [← List.concat_eq_append]
        exact List.Nodup.concat hmem (h.nodup other)
    · rw [types_add_of_ne _ _ _ _ _ hother]
      exact h.nodup other
  within other u hu := by
    rcases (mem_types_add ..).mp hu with hold | ⟨_, rfl⟩
    · exact h.within other u hold
    · exact ht

theorem listsPresent_remove (h : ListsPresent types world) (e : EntityId) (t : Symbol) :
    ListsPresent types (world.removeComponent e t).2 := by
  have htypes : ∀ other u, u ∈ (world.removeComponent e t).2.types other →
      u ∈ world.types other ∧ (other, u) ≠ (e, t) := by
    intro other u hu
    rw [types_removeComponent] at hu
    split_ifs at hu with hdrop
    · obtain ⟨_, rfl⟩ := hdrop
      obtain ⟨hold, hne⟩ := List.mem_filter.mp hu
      exact ⟨hold, fun heq => absurd (Prod.mk.inj heq).2 (by simpa using hne)⟩
    · refine ⟨hu, fun heq => hdrop ?_⟩
      obtain ⟨rfl, rfl⟩ := Prod.mk.inj heq
      exact ⟨h.present other u hu, rfl⟩
  constructor
  · intro other u hu
    obtain ⟨hold, hne⟩ := htypes other u hu
    rw [hasComponent_remove, if_neg hne]
    exact h.present other u hold
  · intro other
    rw [types_removeComponent]
    split_ifs
    · exact (h.nodup e).filter _
    · exact h.nodup other
  · intro other u hu
    exact h.within other u (htypes other u hu).1

theorem listsPresent_despawn (h : ListsPresent types world) (e : EntityId) :
    ListsPresent types (world.despawnEntity e) := by
  constructor
  · intro other u hu
    rw [types_despawn] at hu
    split_ifs at hu with hother
    · cases hu
    · rw [hasComponent_despawn]
      exact ⟨h.present other u hu, fun hsame => hother hsame.1⟩
  · intro other
    rw [types_despawn]
    split_ifs
    · exact List.nodup_nil
    · exact h.nodup other
  · intro other u hu
    rw [types_despawn] at hu
    split_ifs at hu
    · cases hu
    · exact h.within other u hu

theorem listsPresent_step (h : ListsPresent types world) (op : Op) (hop : op.Within types) :
    ListsPresent types (world.step op) := by
  cases op with
  | spawnEntity => exact ⟨h.present, h.nodup, h.within⟩
  | addComponentWithStorage e t data storage => exact listsPresent_add h e hop data storage
  | removeComponent e t => exact listsPresent_remove h e t
  | despawnEntity e => exact listsPresent_despawn h e

theorem listsPresent_worldAfter (ops : List Op) (hops : ∀ op ∈ ops, op.Within types) :
    ListsPresent types (worldAfter ops) :=
  Transition.run_invariant_of_forall (ListsPresent types) (fun _ op h hop => listsPresent_step h op hop)
    (listsPresent_new types) ops hops

end Cougr.SimpleWorld
