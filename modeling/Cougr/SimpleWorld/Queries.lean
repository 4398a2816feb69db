import Cougr.SimpleWorld.PartialMap

namespace Cougr.SimpleWorld

-- Every addition of a type goes to the map its kind names, as `set_typed` does.
def Op.Follows (kind : Symbol → ComponentStorage) : Op → Prop
  | .addComponentWithStorage _ componentType _ storage => storage = kind componentType
  | _ => True

instance (kind : Symbol → ComponentStorage) : DecidablePred (Op.Follows kind)
  | .spawnEntity => isTrue trivial
  | .addComponentWithStorage _ componentType _ storage =>
    inferInstanceAs (Decidable (storage = kind componentType))
  | .removeComponent _ _ => isTrue trivial
  | .despawnEntity _ => isTrue trivial

-- The type lists index both maps: they name each component that is stored, in the map of its kind.
structure Indexed (kind : Symbol → ComponentStorage) (world : SimpleWorld) : Prop where
  table : ∀ e t, (world.components.get (e, t)).isSome ↔ kind t = .Table ∧ t ∈ world.types e
  sparse : ∀ e t, (world.sparseComponents.get (e, t)).isSome ↔ kind t = .Sparse ∧ t ∈ world.types e
  lists : ∀ e types, world.entityComponents.get e = some types → types ≠ [] ∧ types.Nodup

variable {kind : Symbol → ComponentStorage} {world : SimpleWorld}

theorem indexed_new : Indexed kind new where
  table e t := by simp [new, types]
  sparse e t := by simp [new, types]
  lists e types h := by simp [new] at h

theorem Indexed.hasComponent_iff (h : Indexed kind world) (e : EntityId) (t : Symbol) :
    world.hasComponent e t ↔ t ∈ world.types e := by
  simp only [hasComponent, Map.containsKey_eq_isSome, Bool.or_eq_true, h.table, h.sparse]
  cases kind t <;> simp

theorem Indexed.nodup_types (h : Indexed kind world) (e : EntityId) : (world.types e).Nodup := by
  unfold types
  cases hlist : world.entityComponents.get e with
  | none => exact List.nodup_nil
  | some list => exact (h.lists e list hlist).2

-- A component under both storage kinds; removing it once uncovers the sparse copy.
def Doubled (world : SimpleWorld) (e : EntityId) (t : Symbol) : Prop :=
  (world.components.get (e, t)).isSome ∧ (world.sparseComponents.get (e, t)).isSome

theorem Indexed.not_doubled (h : Indexed kind world) (e : EntityId) (t : Symbol) : ¬world.Doubled e t := by
  rintro ⟨htable, hsparse⟩
  have hkind := ((h.table e t).mp htable).1
  rw [((h.sparse e t).mp hsparse).1] at hkind
  cases hkind

section Step

theorem indexed_add (h : Indexed kind world) (e : EntityId) (t : Symbol) (data : Bytes) :
    Indexed kind (world.addComponentWithStorage e t data (kind t)) := by
  constructor
  · intro other u
    rw [get_components_add, mem_types_add]
    by_cases hkey : (other, u) = (e, t)
    · obtain ⟨rfl, rfl⟩ := Prod.ext_iff.mp hkey
      by_cases hkind : kind u = .Table
      · simp [hkind]
      · simpa [hkind] using h.table other u
    · have hne : ¬(other = e ∧ u = t) := fun heq => hkey (Prod.ext heq.1 heq.2)
      simpa [hkey, hne] using h.table other u
  · intro other u
    rw [get_sparseComponents_add, mem_types_add]
    by_cases hkey : (other, u) = (e, t)
    · obtain ⟨rfl, rfl⟩ := Prod.ext_iff.mp hkey
      by_cases hkind : kind u = .Sparse
      · simp [hkind]
      · simpa [hkind] using h.sparse other u
    · have hne : ¬(other = e ∧ u = t) := fun heq => hkey (Prod.ext heq.1 heq.2)
      simpa [hkey, hne] using h.sparse other u
  · intro other list hlist
    have hnodup := h.nodup_types e
    simp only [addComponentWithStorage, Map.get_set] at hlist
    split_ifs at hlist with hother hmem
    · cases hlist
      exact ⟨List.ne_nil_of_mem hmem, hnodup⟩
    · cases hlist
      refine ⟨List.append_ne_nil_of_right_ne_nil _ (List.cons_ne_nil t []), ?_⟩
      exact List.nodup_append.mpr ⟨hnodup, List.nodup_singleton t, by
        rintro u hu _ (hlast : _ ∈ [t]) rfl
        exact hmem (List.mem_singleton.mp hlast ▸ hu)⟩
    · exact h.lists other list hlist

-- The list of an entity loses the type, and is dropped with its last one.
theorem lists_dropType (hlists : ∀ e types, world.entityComponents.get e = some types →
      types ≠ [] ∧ types.Nodup) (e : EntityId) (t : Symbol) (other : EntityId) (list : List Symbol)
    (hlist : (world.dropType e t).entityComponents.get other = some list) : list ≠ [] ∧ list.Nodup := by
  unfold dropType at hlist
  cases hold : world.entityComponents.get e with
  | none =>
      rw [hold] at hlist
      exact hlists other list hlist
  | some types =>
      simp only [hold] at hlist
      split_ifs at hlist with hempty
      · simp only [Map.get_erase] at hlist
        split_ifs at hlist
        exact hlists other list hlist
      · simp only [Map.get_set] at hlist
        split_ifs at hlist with hother
        · cases hlist
          exact ⟨by simpa using hempty, (hlists e types hold).2.filter _⟩
        · exact hlists other list hlist

theorem indexed_remove (h : Indexed kind world) (e : EntityId) (t : Symbol) :
    Indexed kind (world.removeComponent e t).2 := by
  have hhas := h.hasComponent_iff e t
  have htypes : ∀ other u, u ∈ (world.removeComponent e t).2.types other ↔
      u ∈ world.types other ∧ (other, u) ≠ (e, t) := by
    intro other u
    rw [types_removeComponent]
    simp only [hhas]
    by_cases hother : other = e
    · by_cases ht : t ∈ world.types e
      · simp [hother, ht]
      · have hne : u ∈ world.types e → u ≠ t := by
          rintro hu rfl
          exact ht hu
        simpa [hother, ht] using hne
    · simp [hother]
  constructor
  · intro other u
    rw [removeComponent_components, Map.get_erase, htypes]
    by_cases hkey : (other, u) = (e, t)
    · simp [hkey]
    · simpa [hkey] using h.table other u
  · intro other u
    rw [removeComponent_sparseComponents, htypes, Map.containsKey_eq_isSome]
    by_cases hkey : (other, u) = (e, t)
    · have hread := h.sparse e t
      have htable := h.table e t
      by_cases hin : (world.components.get (e, t)).isSome
      · have hkind := (htable.mp hin).1
        simpa [hkey, hin, hkind] using hread
      · simp [hkey, hin]
    · split_ifs
      · simpa [hkey] using h.sparse other u
      · simpa [hkey, Map.get_erase] using h.sparse other u
  · intro other list hlist
    rw [removeComponent_eq] at hlist
    split_ifs at hlist
    · exact @lists_dropType (world.clearKey (e, t)) h.lists e t other list hlist
    · exact h.lists other list hlist

theorem indexed_despawn (h : Indexed kind world) (e : EntityId) : Indexed kind (world.despawnEntity e) := by
  constructor
  · intro other u
    rw [get_components_despawn, types_despawn]
    by_cases hother : other = e
    · by_cases hu : u ∈ world.types e
      · simp [hother, hu]
      · simpa [hother, hu] using h.table e u
    · simpa [hother] using h.table other u
  · intro other u
    rw [get_sparseComponents_despawn, types_despawn]
    by_cases hother : other = e
    · by_cases hu : u ∈ world.types e
      · simp [hother, hu]
      · simpa [hother, hu] using h.sparse e u
    · simpa [hother] using h.sparse other u
  · intro other list hlist
    simp only [despawnEntity, Map.get_erase] at hlist
    split_ifs at hlist
    exact h.lists other list hlist

theorem indexed_step (h : Indexed kind world) (op : Op) (hfollows : op.Follows kind) :
    Indexed kind (world.step op) := by
  cases op with
  | spawnEntity => exact ⟨h.table, h.sparse, h.lists⟩
  | addComponentWithStorage e t data storage =>
      have hstorage : storage = kind t := hfollows
      rw [step, hstorage]
      exact indexed_add h e t data
  | removeComponent e t => exact indexed_remove h e t
  | despawnEntity e => exact indexed_despawn h e

-- With one kind for a type no step meets a component in both maps, so a step reads as on the contents.
theorem Indexed.oneCopy (h : Indexed kind world) (op : Op) (hfollows : op.Follows kind) : world.OneCopy op := by
  cases op with
  | spawnEntity => trivial
  | addComponentWithStorage e t data storage =>
      cases storage with
      | Table => trivial
      | Sparse =>
          intro old hold
          have hkind : ComponentStorage.Sparse = kind t := hfollows
          have htable := (h.table e t).mp (by rw [hold]; rfl)
          rw [← hkind] at htable
          cases htable.1
  | removeComponent e t =>
      rintro ⟨htable, hsparse⟩
      rw [Map.containsKey_eq_isSome] at htable hsparse
      exact h.not_doubled e t ⟨htable, hsparse⟩
  | despawnEntity e => trivial

theorem Indexed.getComponent_step (h : Indexed kind world) (op : Op) (hfollows : op.Follows kind) (e : EntityId)
    (t : Symbol) :
    (world.step op).getComponent e t = Contents.step (fun key => world.getComponent key.1 key.2) op (e, t) := by
  have hone := h.oneCopy op hfollows
  cases op with
  | spawnEntity => rfl
  | addComponentWithStorage e' t' data storage =>
      simp only [step, Contents.step, getComponent_add world e' t' data storage hone, Function.update_apply]
  | removeComponent e' t' =>
      simp only [step, Contents.step, getComponent_remove world e' t' hone, Function.update_apply]
  | despawnEntity e' =>
      simp only [step, Contents.step, getComponent_despawn world e' fun t => (h.hasComponent_iff e' t).mp]

end Step

section Counter

-- Only a spawn takes an id.
def Op.idsTaken : Op → Nat
  | .spawnEntity => 1
  | .addComponentWithStorage _ _ _ _ => 0
  | .removeComponent _ _ => 0
  | .despawnEntity _ => 0

theorem nextEntityId_step (world : SimpleWorld) (op : Op) :
    (world.step op).nextEntityId = world.nextEntityId + op.idsTaken := by
  cases op with
  | spawnEntity => rfl
  | addComponentWithStorage e t d storage => cases storage <;> rfl
  | removeComponent e t =>
      simp only [step, removeComponent_eq, dropType]
      split_ifs
      · split
        · rfl
        · dsimp only
          split_ifs <;> rfl
      · rfl
  | despawnEntity e => rfl

end Counter

section Query

theorem invariant_worldAfter (ops : List Op) (hfollows : ∀ op ∈ ops, op.Follows kind) :
    Indexed kind (worldAfter ops) :=
  Transition.run_invariant_of_forall (Indexed kind) (fun _ op h hop => indexed_step h op hop) indexed_new
    ops hfollows

theorem oneCopy_of_follows (ops : List Op) (hfollows : ∀ op ∈ ops, op.Follows kind) :
    Transition.StepsMeet step OneCopy new ops := by
  rw [Transition.stepsMeet_iff_forall_cut]
  rintro past op rest rfl
  have hindexed : Indexed kind (worldAfter past) :=
    invariant_worldAfter past fun other hother => hfollows other (List.mem_append_left _ hother)
  exact hindexed.oneCopy op (hfollows op (by simp))

theorem mem_entityComponents_keys {e : EntityId} {t : Symbol} (ht : t ∈ world.types e) :
    e ∈ world.entityComponents.keys := by
  rw [Map.mem_keys]
  unfold types at ht
  cases hlist : world.entityComponents.get e with
  | none => simp [hlist] at ht
  | some list => rfl

theorem ascending_keys (world : SimpleWorld) : world.entityComponents.keys.Pairwise (· < ·) :=
  world.entityComponents.keys_sorted.imp compare_lt_iff_lt.mp

theorem getEntitiesWithComponent_eq (world : SimpleWorld) (t : Symbol) :
    world.getEntitiesWithComponent t = world.entityComponents.keys.filter fun e => t ∈ world.types e := by
  apply List.filter_congr
  intro e _
  unfold types
  cases world.entityComponents.get e with
  | none => simp
  | some list => rfl

theorem mem_getEntitiesWithComponent_iff_listed (world : SimpleWorld) (e : EntityId) (t : Symbol) :
    e ∈ world.getEntitiesWithComponent t ↔ t ∈ world.types e := by
  rw [getEntitiesWithComponent_eq, List.mem_filter, decide_eq_true_iff]
  exact ⟨And.right, fun ht => ⟨mem_entityComponents_keys ht, ht⟩⟩

-- The answer lists its entities in the order of their ids, so the types listed decide it.
theorem getEntitiesWithComponent_eq_iff {first second : SimpleWorld} (t : Symbol) :
    first.getEntitiesWithComponent t = second.getEntitiesWithComponent t ↔
      ∀ e, t ∈ first.types e ↔ t ∈ second.types e := by
  simp only [← mem_getEntitiesWithComponent_iff_listed]
  constructor
  · intro heq e
    rw [heq]
  · intro hmem
    have hfirst := (ascending_keys first).filter fun e => t ∈ first.types e
    have hsecond := (ascending_keys second).filter fun e => t ∈ second.types e
    rw [← getEntitiesWithComponent_eq] at hfirst hsecond
    apply List.Perm.eq_of_pairwise (fun _ _ _ _ hlt hgt => absurd hlt (Nat.lt_asymm hgt)) hfirst hsecond
    exact (List.perm_ext_iff_of_nodup (hfirst.imp ne_of_lt) (hsecond.imp ne_of_lt)).mpr hmem

theorem mem_getEntitiesWithComponent (h : Indexed kind world) (e : EntityId) (t : Symbol) :
    e ∈ world.getEntitiesWithComponent t ↔ world.hasComponent e t := by
  rw [mem_getEntitiesWithComponent_iff_listed, h.hasComponent_iff]

theorem getAllEntitiesWithComponent_eq (h : Indexed kind world) (t : Symbol) :
    world.getAllEntitiesWithComponent t = world.getEntitiesWithComponent t := by
  rw [getEntitiesWithComponent_eq]
  apply List.filter_congr
  intro e _
  rw [Bool.eq_iff_iff, decide_eq_true_iff]
  exact h.hasComponent_iff e t

theorem getTableEntitiesWithComponent_eq (h : Indexed kind world) (t : Symbol) :
    world.getTableEntitiesWithComponent t =
      if kind t = .Table then world.getEntitiesWithComponent t else [] := by
  rw [getEntitiesWithComponent_eq]
  split_ifs with hkind
  · apply List.filter_congr
    intro e _
    rw [Map.containsKey_eq_isSome, Bool.eq_iff_iff, decide_eq_true_iff, h.table]
    exact and_iff_right hkind
  · apply List.filter_eq_nil_iff.mpr
    intro e _
    rw [Map.containsKey_eq_isSome, h.table]
    exact fun hin => hkind hin.1

-- In every state the type lists index the stored components, and the three queries are exact.
theorem indexed_worldAfter (kind : Symbol → ComponentStorage) (ops : List Op)
    (hfollows : ∀ op ∈ ops, op.Follows kind) :
    Indexed kind (worldAfter ops) ∧ ∀ t,
      ((worldAfter ops).getEntitiesWithComponent t).Pairwise (· < ·) ∧
      (∀ e, e ∈ (worldAfter ops).getEntitiesWithComponent t ↔ (worldAfter ops).hasComponent e t) ∧
      (worldAfter ops).getAllEntitiesWithComponent t = (worldAfter ops).getEntitiesWithComponent t ∧
      (worldAfter ops).getTableEntitiesWithComponent t =
        if kind t = .Table then (worldAfter ops).getEntitiesWithComponent t else [] := by
  have h := invariant_worldAfter ops hfollows
  refine ⟨h, fun t => ⟨?_, fun e => mem_getEntitiesWithComponent h e t,
    getAllEntitiesWithComponent_eq h t, getTableEntitiesWithComponent_eq h t⟩⟩
  exact (ascending_keys _).filter _

-- One type of each kind, on an entity that was spawned and on one that was not.
theorem indexed_two_kinds :
    Indexed (fun t => if t = symbolShort "hp" then .Table else .Sparse)
      (worldAfter [.spawnEntity, .addComponentWithStorage 1 (symbolShort "hp") [9] .Table,
        .addComponentWithStorage 7 (symbolShort "tag") [] .Sparse]) := by
  have hrun := indexed_worldAfter (fun t => if t = symbolShort "hp" then .Table else .Sparse)
    [.spawnEntity, .addComponentWithStorage 1 (symbolShort "hp") [9] .Table,
      .addComponentWithStorage 7 (symbolShort "tag") [] .Sparse] (by decide)
  exact hrun.1

end Query

end Cougr.SimpleWorld
