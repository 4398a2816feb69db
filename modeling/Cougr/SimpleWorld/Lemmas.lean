import Cougr.SimpleWorld

namespace Cougr.SimpleWorld

-- The types listed for an entity; an entity without a list has none.
def types (world : SimpleWorld) (entityId : EntityId) : List Symbol :=
  (world.entityComponents.get entityId).getD []

theorem hasComponent_eq_isSome (world : SimpleWorld) (e : EntityId) (t : Symbol) :
    world.hasComponent e t = (world.getComponent e t).isSome := by
  simp [hasComponent, getComponent, Map.containsKey_eq_isSome]

section Add

variable (world : SimpleWorld) (e : EntityId) (t : Symbol) (data : Bytes)
  (storage : ComponentStorage)

theorem get_components_add (key : EntityId × Symbol) :
    (world.addComponentWithStorage e t data storage).components.get key =
      if storage = .Table ∧ key = (e, t) then some data else world.components.get key := by
  cases storage <;> simp [addComponentWithStorage, Map.get_set]

theorem get_sparseComponents_add (key : EntityId × Symbol) :
    (world.addComponentWithStorage e t data storage).sparseComponents.get key =
      if storage = .Sparse ∧ key = (e, t) then some data else world.sparseComponents.get key := by
  cases storage <;> simp [addComponentWithStorage, Map.get_set]

theorem types_add_self : (world.addComponentWithStorage e t data storage).types e =
    if t ∈ world.types e then world.types e else world.types e ++ [t] := by
  simp only [types, addComponentWithStorage, Map.get_set_self, Option.getD_some]
  rfl

theorem types_add_of_ne {other : EntityId} (hne : other ≠ e) :
    (world.addComponentWithStorage e t data storage).types other = world.types other := by
  simp [types, addComponentWithStorage, Map.get_set, hne]

theorem mem_types_add {other : EntityId} {u : Symbol} :
    u ∈ (world.addComponentWithStorage e t data storage).types other ↔
      u ∈ world.types other ∨ (other = e ∧ u = t) := by
  by_cases hne : other = e
  · subst hne
    rw [types_add_self]
    split_ifs with ht
    · constructor
      · exact Or.inl
      · rintro (h | ⟨_, rfl⟩)
        · exact h
        · exact ht
    · simp
  · simp [types_add_of_ne world e t data storage hne, hne]

end Add

section Remove

variable (world : SimpleWorld) (e : EntityId) (t : Symbol)

theorem dropType_components : (world.dropType e t).components = world.components := by
  unfold dropType
  split
  · rfl
  · dsimp only
    split_ifs <;> rfl

theorem dropType_sparseComponents :
    (world.dropType e t).sparseComponents = world.sparseComponents := by
  unfold dropType
  split
  · rfl
  · dsimp only
    split_ifs <;> rfl

theorem types_dropType (other : EntityId) :
    (world.dropType e t).types other =
      if other = e then (world.types e).filter (· ≠ t) else world.types other := by
  unfold dropType
  split
  · rename_i hnone
    by_cases hne : other = e
    · subst hne
      simp [types, hnone]
    · simp [hne]
  · rename_i list hlist
    dsimp only
    split_ifs with hempty hne hne
    · subst hne
      have hnil : list.filter (· ≠ t) = [] := List.isEmpty_iff.mp hempty
      simp only [types, hlist, Option.getD_some, Map.get_erase_self, Option.getD_none, hnil]
    · simp [types, Map.get_erase, hne]
    · subst hne
      simp [types, hlist]
    · simp [types, Map.get_set, hne]

-- What both removals leave of the two maps, the type list aside. An entry of the
-- table map shields an entry of the sparse map.
def clearKey (world : SimpleWorld) (key : EntityId × Symbol) : SimpleWorld :=
  { world with
    version := world.version + 1
    components := world.components.erase key
    sparseComponents :=
      if world.components.containsKey key then world.sparseComponents
      else world.sparseComponents.erase key }

theorem removeComponent_eq :
    world.removeComponent e t =
      if world.hasComponent e t then (true, (world.clearKey (e, t)).dropType e t)
      else (false, world.clearKey (e, t)) := by
  unfold removeComponent removeFromMaps Map.remove hasComponent clearKey
  cases htable : world.components.containsKey (e, t) with
  | true => simp
  | false => cases hsparse : world.sparseComponents.containsKey (e, t) <;> simp

theorem removeComponent_fst : (world.removeComponent e t).1 = world.hasComponent e t := by
  rw [removeComponent_eq]
  cases world.hasComponent e t <;> rfl

theorem removeComponent_components :
    (world.removeComponent e t).2.components = world.components.erase (e, t) := by
  rw [removeComponent_eq]
  split_ifs
  · exact dropType_components ..
  · rfl

theorem removeComponent_sparseComponents :
    (world.removeComponent e t).2.sparseComponents =
      if world.components.containsKey (e, t) then world.sparseComponents
      else world.sparseComponents.erase (e, t) := by
  rw [removeComponent_eq]
  by_cases hhas : world.hasComponent e t
  · rw [if_pos hhas]
    exact dropType_sparseComponents ..
  · rw [if_neg hhas]
    rfl

theorem types_removeComponent (other : EntityId) :
    (world.removeComponent e t).2.types other =
      if world.hasComponent e t ∧ other = e then (world.types e).filter (· ≠ t)
      else world.types other := by
  rw [removeComponent_eq]
  by_cases hhas : world.hasComponent e t
  · simp only [hhas, if_true, true_and]
    exact types_dropType (world.clearKey (e, t)) e t other
  · rw [if_neg hhas, if_neg fun h => hhas h.1]
    rfl

end Remove

section Despawn

variable (world : SimpleWorld) (e : EntityId)

theorem get_components_despawn (key : EntityId × Symbol) :
    (world.despawnEntity e).components.get key =
      if key.1 = e ∧ key.2 ∈ world.types e then none else world.components.get key := by
  simp [despawnEntity, types, Map.get_foldl_erase, Prod.ext_iff, eq_comm, and_comm]

theorem get_sparseComponents_despawn (key : EntityId × Symbol) :
    (world.despawnEntity e).sparseComponents.get key =
      if key.1 = e ∧ key.2 ∈ world.types e then none else world.sparseComponents.get key := by
  simp [despawnEntity, types, Map.get_foldl_erase, Prod.ext_iff, eq_comm, and_comm]

theorem types_despawn (other : EntityId) :
    (world.despawnEntity e).types other = if other = e then [] else world.types other := by
  by_cases hne : other = e <;> simp [types, despawnEntity, Map.get_erase, hne]

end Despawn

end Cougr.SimpleWorld
