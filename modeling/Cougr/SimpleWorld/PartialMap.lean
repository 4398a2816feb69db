import Cougr.SimpleWorld.Lemmas

namespace Cougr.SimpleWorld

-- What the world is for: a partial map from an entity and a component type to bytes.
abbrev Contents := EntityId × Symbol → Option Bytes

def Contents.step (contents : Contents) : Op → Contents
  | .spawnEntity => contents
  | .addComponentWithStorage e t data _ => Function.update contents (e, t) (some data)
  | .removeComponent e t => Function.update contents (e, t) none
  | .despawnEntity e => fun key => if key.1 = e then none else contents key

def worldAfter (ops : List Op) : SimpleWorld := Transition.run step new ops

-- Per component, the data of the last add that no later operation has undone.
def contentsAfter (ops : List Op) : Contents := Transition.run Contents.step (fun _ => none) ops

def Op.Targets : Op → EntityId → Symbol → Prop
  | .spawnEntity, _, _ => False
  | .addComponentWithStorage e t _ _, e', t' => e' = e ∧ t' = t
  | .removeComponent e t, e', t' => e' = e ∧ t' = t
  | .despawnEntity e, e', _ => e' = e

-- The run shows its callers a partial map: in every state it passes through, the reads agree
-- with the contents; removals report and clear; nothing else changes.
structure ActsAsMap (ops : List Op) : Prop where
  get : ∀ past rest, ops = past ++ rest →
    ∀ e t, (worldAfter past).getComponent e t = contentsAfter past (e, t)
  has : ∀ past rest, ops = past ++ rest →
    ∀ e t, (worldAfter past).hasComponent e t ↔ ((worldAfter past).getComponent e t).isSome
  remove : ∀ past e t rest, ops = past ++ .removeComponent e t :: rest →
    (((worldAfter past).removeComponent e t).1 ↔ (worldAfter past).hasComponent e t) ∧
    ¬((worldAfter past).removeComponent e t).2.hasComponent e t
  frame : ∀ past op rest, ops = past ++ op :: rest → ∀ e t, ¬op.Targets e t →
    ((worldAfter past).step op).getComponent e t = (worldAfter past).getComponent e t

-- A sparse add does not hide behind other data in the table map, and a removal does not
-- meet the component in both maps.
def OneCopy (world : SimpleWorld) : Op → Prop
  | .addComponentWithStorage e t data .Sparse =>
    ∀ old, world.components.get (e, t) = some old → old = data
  | .removeComponent e t =>
    ¬(world.components.containsKey (e, t) ∧ world.sparseComponents.containsKey (e, t))
  | _ => True

theorem getComponent_add (world : SimpleWorld) (e : EntityId) (t : Symbol) (data : Bytes)
    (storage : ComponentStorage)
    (hone : world.OneCopy (.addComponentWithStorage e t data storage)) (e' : EntityId) (t' : Symbol) :
    (world.addComponentWithStorage e t data storage).getComponent e' t' =
      if (e', t') = (e, t) then some data else world.getComponent e' t' := by
  unfold getComponent
  rw [get_components_add, get_sparseComponents_add]
  by_cases hkey : (e', t') = (e, t)
  · rw [hkey]
    cases storage with
    | Table => simp
    | Sparse =>
        cases htable : world.components.get (e, t) with
        | none => simp
        | some old => simp [hone old htable]
  · simp [hkey]

theorem getComponent_remove (world : SimpleWorld) (e : EntityId) (t : Symbol)
    (hone : world.OneCopy (.removeComponent e t)) (e' : EntityId) (t' : Symbol) :
    (world.removeComponent e t).2.getComponent e' t' =
      if (e', t') = (e, t) then none else world.getComponent e' t' := by
  unfold getComponent
  rw [removeComponent_components, removeComponent_sparseComponents]
  by_cases hkey : (e', t') = (e, t)
  · rw [hkey]
    simp only [OneCopy, Map.containsKey_eq_isSome] at hone ⊢
    by_cases htable : (world.components.get (e, t)).isSome
    · simpa [htable] using hone
    · simp [htable]
  · simp only [Map.get_erase, hkey, if_false]
    split_ifs <;> simp [Map.get_erase, hkey]

theorem getComponent_despawn (world : SimpleWorld) (e : EntityId)
    (hlisted : ∀ t, world.hasComponent e t → t ∈ world.types e) (e' : EntityId) (t' : Symbol) :
    (world.despawnEntity e).getComponent e' t' =
      if e' = e then none else world.getComponent e' t' := by
  have hread := hasComponent_eq_isSome world e t'
  unfold getComponent at hread ⊢
  rw [get_components_despawn, get_sparseComponents_despawn]
  by_cases he : e' = e
  · subst he
    by_cases ht : t' ∈ world.types e'
    · simp [ht]
    · have habsent : world.hasComponent e' t' = false := by
        simpa using fun h => ht (hlisted t' h)
      rw [habsent] at hread
      simpa [ht] using hread.symm
  · simp [he]

-- No operation reaches past its own components, whatever the maps hold.
theorem getComponent_step_of_not_targets (world : SimpleWorld) (op : Op) (e : EntityId) (t : Symbol)
    (htarget : ¬op.Targets e t) : (world.step op).getComponent e t = world.getComponent e t := by
  cases op with
  | spawnEntity => rfl
  | addComponentWithStorage e' t' data storage =>
      have hkey : (e, t) ≠ (e', t') := fun h => htarget (Prod.ext_iff.mp h)
      simp [step, getComponent, get_components_add, get_sparseComponents_add, hkey]
  | removeComponent e' t' =>
      have hkey : (e, t) ≠ (e', t') := fun h => htarget (Prod.ext_iff.mp h)
      simp only [step, getComponent, removeComponent_components, removeComponent_sparseComponents,
        Map.get_erase, hkey, if_false]
      split_ifs <;> simp [Map.get_erase, hkey]
  | despawnEntity e' =>
      have he : e ≠ e' := htarget
      simp [step, getComponent, get_components_despawn, get_sparseComponents_despawn, he]

-- Along a run of one-copy steps the world reads as its contents, and the index of an
-- entity names every component it has. Despawning relies on the second part.
structure Mirrors (past : List Op) (world : SimpleWorld) : Prop where
  get : ∀ e t, world.getComponent e t = contentsAfter past (e, t)
  listed : ∀ e t, world.hasComponent e t → t ∈ world.types e

theorem mirrors_new : Mirrors [] new where
  get e t := by simp [getComponent, new, contentsAfter]
  listed e t h := by simp [hasComponent, new, Map.containsKey_eq_isSome] at h

theorem contentsAfter_concat (past : List Op) (op : Op) :
    contentsAfter (past ++ [op]) = (contentsAfter past).step op := Transition.run_concat ..

theorem worldAfter_concat (past : List Op) (op : Op) :
    worldAfter (past ++ [op]) = (worldAfter past).step op := Transition.run_concat ..

theorem mirrors_step {past : List Op} {world : SimpleWorld} (hmirrors : Mirrors past world) (op : Op)
    (hone : world.OneCopy op) : Mirrors (past ++ [op]) (world.step op) := by
  obtain ⟨hget, hlisted⟩ := hmirrors
  simp only [hasComponent_eq_isSome] at hlisted
  constructor
  · intro e' t'
    rw [contentsAfter_concat]
    cases op with
    | spawnEntity => exact hget e' t'
    | addComponentWithStorage e t data storage =>
        simp only [step, Contents.step, getComponent_add world e t data storage hone,
          Function.update_apply, hget]
    | removeComponent e t =>
        simp only [step, Contents.step, getComponent_remove world e t hone,
          Function.update_apply, hget]
    | despawnEntity e =>
        have hl : ∀ t, world.hasComponent e t → t ∈ world.types e := by
          simpa only [hasComponent_eq_isSome] using hlisted e
        simp only [step, Contents.step, getComponent_despawn world e hl, hget]
  · intro e' t' hhas
    rw [hasComponent_eq_isSome] at hhas
    cases op with
    | spawnEntity => exact hlisted e' t' hhas
    | addComponentWithStorage e t data storage =>
        rw [step, getComponent_add world e t data storage hone] at hhas
        rw [step, mem_types_add]
        by_cases hkey : (e', t') = (e, t)
        · exact Or.inr (Prod.ext_iff.mp hkey)
        · rw [if_neg hkey] at hhas
          exact Or.inl (hlisted e' t' hhas)
    | removeComponent e t =>
        rw [step, getComponent_remove world e t hone] at hhas
        by_cases hkey : (e', t') = (e, t)
        · simp [hkey] at hhas
        · rw [if_neg hkey] at hhas
          have hmem := hlisted e' t' hhas
          rw [step, types_removeComponent]
          split_ifs with hdrop
          · obtain ⟨_, rfl⟩ := hdrop
            exact List.mem_filter.mpr ⟨hmem, by simpa using fun h => hkey (by rw [h])⟩
          · exact hmem
    | despawnEntity e =>
        have hl : ∀ t, world.hasComponent e t → t ∈ world.types e := by
          simpa only [hasComponent_eq_isSome] using hlisted e
        rw [step, getComponent_despawn world e hl] at hhas
        by_cases he : e' = e
        · simp [he] at hhas
        · rw [step, types_despawn, if_neg he]
          rw [if_neg he] at hhas
          exact hlisted e' t' hhas

theorem mirrors_worldAfter (ops : List Op) (hone : Transition.StepsMeet step OneCopy new ops) :
    Mirrors ops (worldAfter ops) :=
  Transition.run_history mirrors_new (fun _ op hpast hok => mirrors_step hpast op hok) ops hone

theorem actsAsMap_of_oneCopy (ops : List Op) (hone : Transition.StepsMeet step OneCopy new ops) :
    ActsAsMap ops where
  get := by
    rintro past rest rfl
    exact (mirrors_worldAfter past ((Transition.stepsMeet_append ..).mp hone).1).get
  has _ _ _ e t := by rw [hasComponent_eq_isSome]
  remove := by
    rintro past e t rest rfl
    have hok : (worldAfter past).OneCopy (.removeComponent e t) :=
      (Transition.stepsMeet_iff_forall_cut ..).mp hone past _ rest rfl
    refine ⟨by rw [removeComponent_fst], ?_⟩
    rw [hasComponent_eq_isSome, getComponent_remove _ e t hok]
    simp
  frame _ op _ _ e t := getComponent_step_of_not_targets _ op e t

-- The converse needs no invariant: the first step that breaks the condition already
-- reads back something else than the contents.
theorem oneCopy_of_actsAsMap (ops : List Op) (hmap : ActsAsMap ops) :
    Transition.StepsMeet step OneCopy new ops := by
  rw [Transition.stepsMeet_iff_forall_cut]
  rintro past op rest rfl
  change (worldAfter past).OneCopy op
  cases op with
  | spawnEntity => trivial
  | despawnEntity e => trivial
  | addComponentWithStorage e t data storage =>
      cases storage with
      | Table => trivial
      | Sparse =>
          intro old hold
          have hget := hmap.get (past ++ [.addComponentWithStorage e t data .Sparse]) rest (by simp) e t
          rw [worldAfter_concat, contentsAfter_concat] at hget
          simpa [step, getComponent, get_components_add, hold, Contents.step] using hget
  | removeComponent e t =>
      rintro ⟨htable, hsparse⟩
      have hgone := (hmap.remove past e t rest rfl).2
      rw [hasComponent_eq_isSome, getComponent, removeComponent_components,
        removeComponent_sparseComponents] at hgone
      rw [Map.containsKey_eq_isSome] at hsparse
      simp [htable, hsparse] at hgone

theorem actsAsMap_iff_oneCopy (ops : List Op) :
    ActsAsMap ops ↔ Transition.StepsMeet step OneCopy new ops :=
  ⟨oneCopy_of_actsAsMap ops, actsAsMap_of_oneCopy ops⟩

-- A sparse add over a table entry is not read back: the table map answers first.
theorem sparse_add_hidden_by_table :
    ¬ActsAsMap [.spawnEntity, .addComponentWithStorage 1 (symbolShort "comp") [1] .Table,
      .addComponentWithStorage 1 (symbolShort "comp") [2] .Sparse] := by
  intro hmap
  have hget := hmap.get _ [] (List.append_nil _).symm 1 (symbolShort "comp")
  revert hget
  decide

end Cougr.SimpleWorld
