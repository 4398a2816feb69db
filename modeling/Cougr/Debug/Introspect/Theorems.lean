import Cougr.Debug.Introspect
import Cougr.Library.Interning

namespace Cougr.Debug

open SimpleWorld

variable {kind : Symbol → ComponentStorage} {world : SimpleWorld}

section Totals

theorem len_eq_length_keys {κ ν : Type} [Ord κ] [Std.TransOrd κ] (map : Map κ ν) : map.len = map.keys.length :=
  Std.ExtTreeMap.length_keys.symm

-- A map with an entry for each value of each key.
theorem len_eq_sum {map : Map (EntityId × Symbol) Bytes} {eids : List EntityId} {values : EntityId → List Symbol}
    (heids : eids.Nodup) (hvalues : ∀ e ∈ eids, (values e).Nodup)
    (hstored : ∀ e t, (map.get (e, t)).isSome ↔ e ∈ eids ∧ t ∈ values e) :
    map.len = (eids.map fun e => (values e).length).sum := by
  have hperm : map.keys.Perm (pairsOf eids values) := by
    rw [List.perm_ext_iff_of_nodup map.nodup_keys (nodup_pairsOf heids hvalues)]
    rintro ⟨e, t⟩
    rw [Map.mem_keys, hstored, mem_pairsOf]
  rw [len_eq_length_keys, hperm.length_eq, pairsOf, List.length_flatMap]
  simp only [List.length_map]

theorem len_components (h : Indexed kind world) : world.components.len =
    (world.entityComponents.keys.map fun e => (ofKind kind .Table (world.types e)).length).sum := by
  refine len_eq_sum world.entityComponents.nodup_keys (fun e _ => (h.nodup_types e).filter _) fun e t => ?_
  rw [h.table, ofKind, List.mem_filter, decide_eq_true_iff]
  exact ⟨fun hin => ⟨mem_entityComponents_keys hin.2, hin.2, hin.1⟩, fun hin => ⟨hin.2.2, hin.2.1⟩⟩

theorem len_sparseComponents (h : Indexed kind world) : world.sparseComponents.len =
    (world.entityComponents.keys.map fun e => (ofKind kind .Sparse (world.types e)).length).sum := by
  refine len_eq_sum world.entityComponents.nodup_keys (fun e _ => (h.nodup_types e).filter _) fun e t => ?_
  rw [h.sparse, ofKind, List.mem_filter, decide_eq_true_iff]
  exact ⟨fun hin => ⟨mem_entityComponents_keys hin.2, hin.2, hin.1⟩, fun hin => ⟨hin.2.2, hin.2.1⟩⟩

theorem length_listEntities (h : Indexed kind world) :
    (listEntities world).length = world.entityComponents.len := by
  rw [listEntities_eq h, List.length_map, len_eq_length_keys]

theorem sum_componentCount (h : Indexed kind world) :
    ((listEntities world).map EntitySummary.componentCount).sum =
      world.components.len + world.sparseComponents.len := by
  rw [listEntities_eq h, List.map_map, len_components h, len_sparseComponents h, ← List.sum_map_add]
  congr 1
  exact List.map_congr_left fun e _ => (length_ofKind kind (world.types e)).symm

end Totals

section Metrics

theorem raiseMax_eq (world : SimpleWorld) (maxComponents : Nat) (e : EntityId) :
    raiseMax world maxComponents e = max maxComponents (world.types e).length := by
  rw [raiseMax, types]
  cases world.entityComponents.get e with
  | none => simp
  | some types =>
      dsimp only [Option.getD_some]
      split_ifs <;> omega

theorem foldl_raiseMax (world : SimpleWorld) (eids : List EntityId) (start : Nat) :
    start ≤ eids.foldl (raiseMax world) start ∧
      (∀ e ∈ eids, (world.types e).length ≤ eids.foldl (raiseMax world) start) ∧
      (eids.foldl (raiseMax world) start = start ∨
        ∃ e ∈ eids, (world.types e).length = eids.foldl (raiseMax world) start) := by
  induction eids generalizing start with
  | nil => exact ⟨Nat.le_refl _, fun _ he => absurd he List.not_mem_nil, Or.inl rfl⟩
  | cons e eids ih =>
      obtain ⟨hstart, hall, hattained⟩ := ih (raiseMax world start e)
      have hraise := raiseMax_eq world start e
      rw [List.foldl_cons]
      refine ⟨by omega, List.forall_mem_cons.mpr ⟨by omega, hall⟩, ?_⟩
      rcases hattained with hsame | ⟨other, hother, hlength⟩
      · rcases Nat.le_total start (world.types e).length with hle | hle
        · exact Or.inr ⟨e, List.mem_cons_self, by omega⟩
        · exact Or.inl (by omega)
      · exact Or.inr ⟨other, List.mem_cons_of_mem e hother, hlength⟩

theorem uniqueComponentTypes_eq (world : SimpleWorld) :
    uniqueComponentTypes world = Interning.known (world.entityComponents.keys.flatMap world.types) := by
  have hpush : pushType = Interning.learn := by
    funext types t
    rw [pushType, Interning.learn]
    simp
  rw [uniqueComponentTypes, Interning.known, List.foldl_flatMap, hpush]
  congr 1
  funext types e
  rw [SimpleWorld.types]
  cases world.entityComponents.get e <;> rfl

end Metrics

-- The summaries of the entities, the summary of the world and the metrics say the same of it.
structure ReportsAgree (kind : Symbol → ComponentStorage) (world : SimpleWorld) : Prop where
  listed : (listEntities world).map EntitySummary.entityId = world.entityComponents.keys
  once : ((listEntities world).map EntitySummary.entityId).Nodup
  exact : ∀ summary ∈ listEntities world, summary.componentTypes ≠ [] ∧ summary.componentTypes.Nodup ∧
    summary.componentCount = summary.componentTypes.length ∧
    ∀ t, t ∈ summary.componentTypes ↔ world.hasComponent summary.entityId t
  split : ∀ summary ∈ listEntities world,
    summary.tableCount = (ofKind kind .Table summary.componentTypes).length ∧
    summary.sparseCount = (ofKind kind .Sparse summary.componentTypes).length
  stored : ∀ summary ∈ listEntities world, ∀ t ∈ summary.componentTypes,
    (world.components.containsKey (summary.entityId, t) ↔ kind t = .Table) ∧
    (world.sparseComponents.containsKey (summary.entityId, t) ↔ kind t = .Sparse)
  missed : ∀ e t, world.hasComponent e t → ∃ summary ∈ listEntities world, summary.entityId = e
  entities : (inspectWorld world).entityCount = (listEntities world).length
  table : (inspectWorld world).tableEntries = ((listEntities world).map EntitySummary.tableCount).sum
  sparse : (inspectWorld world).sparseEntries = ((listEntities world).map EntitySummary.sparseCount).sum
  total : (inspectWorld world).totalComponents = ((listEntities world).map EntitySummary.componentCount).sum
  average : (collectMetrics world).avgComponentsPerEntity =
    ((listEntities world).map EntitySummary.componentCount).sum / (listEntities world).length
  bound : ∀ summary ∈ listEntities world, summary.componentCount ≤ (collectMetrics world).maxComponentsPerEntity
  attained : listEntities world = [] ∧ (collectMetrics world).maxComponentsPerEntity = 0 ∨
    ∃ summary ∈ listEntities world, summary.componentCount = (collectMetrics world).maxComponentsPerEntity
  distinct : (uniqueComponentTypes world).Nodup ∧
    (collectMetrics world).uniqueComponentTypes = (uniqueComponentTypes world).length ∧
    ∀ t, t ∈ uniqueComponentTypes world ↔ ∃ e, world.hasComponent e t

theorem mem_listEntities (h : Indexed kind world) (summary : EntitySummary) :
    summary ∈ listEntities world ↔ ∃ e ∈ world.entityComponents.keys, summaryOf kind world e = summary := by
  rw [listEntities_eq h, List.mem_map]

theorem entityIds_listEntities (h : Indexed kind world) :
    (listEntities world).map EntitySummary.entityId = world.entityComponents.keys := by
  rw [listEntities_eq h, List.map_map]
  exact List.map_id _

-- An entity whose last component goes is no longer listed.
theorem types_ne_nil (h : Indexed kind world) {e : EntityId} (he : e ∈ world.entityComponents.keys) :
    world.types e ≠ [] := by
  obtain ⟨types, htypes⟩ := Option.isSome_iff_exists.mp ((Map.mem_keys _ e).mp he)
  rw [SimpleWorld.types, htypes, Option.getD_some]
  exact (h.lists e types htypes).1

theorem reportsAgree_of_indexed (h : Indexed kind world) : ReportsAgree kind world where
  listed := entityIds_listEntities h
  once := by
    rw [entityIds_listEntities h]
    exact world.entityComponents.nodup_keys
  exact summary hsummary := by
    obtain ⟨e, he, rfl⟩ := (mem_listEntities h summary).mp hsummary
    exact ⟨types_ne_nil h he, h.nodup_types e, rfl, fun t => (h.hasComponent_iff e t).symm⟩
  split summary hsummary := by
    obtain ⟨e, _, rfl⟩ := (mem_listEntities h summary).mp hsummary
    exact ⟨rfl, rfl⟩
  stored summary hsummary t ht := by
    obtain ⟨e, _, rfl⟩ := (mem_listEntities h summary).mp hsummary
    rw [Map.containsKey_eq_isSome, Map.containsKey_eq_isSome]
    exact ⟨(h.table e t).trans (and_iff_left ht), (h.sparse e t).trans (and_iff_left ht)⟩
  missed e t hhas := by
    have he := mem_entityComponents_keys ((h.hasComponent_iff e t).mp hhas)
    exact ⟨summaryOf kind world e, (mem_listEntities h _).mpr ⟨e, he, rfl⟩, rfl⟩
  entities := (length_listEntities h).symm
  table := by
    rw [listEntities_eq h, List.map_map]
    exact len_components h
  sparse := by
    rw [listEntities_eq h, List.map_map]
    exact len_sparseComponents h
  total := (sum_componentCount h).symm
  average := by
    rw [sum_componentCount h, length_listEntities h, collectMetrics]
    dsimp only
    split_ifs with hsome
    · rfl
    · rw [Nat.eq_zero_of_not_pos hsome, Nat.div_zero]
  bound summary hsummary := by
    obtain ⟨e, he, rfl⟩ := (mem_listEntities h summary).mp hsummary
    exact (foldl_raiseMax world _ 0).2.1 e he
  attained := by
    rcases List.eq_nil_or_concat world.entityComponents.keys with hnone | ⟨_, last, hsome⟩
    · refine Or.inl ⟨by rw [listEntities_eq h, hnone, List.map_nil], ?_⟩
      rw [collectMetrics, hnone]
      rfl
    · refine Or.inr ?_
      obtain ⟨_, hall, hzero | ⟨e, he, hlength⟩⟩ := foldl_raiseMax world world.entityComponents.keys 0
      · have hlast : last ∈ world.entityComponents.keys := by
          rw [hsome, List.concat_eq_append]
          exact List.mem_concat_self
        refine ⟨summaryOf kind world last, (mem_listEntities h _).mpr ⟨last, hlast, rfl⟩, ?_⟩
        exact Nat.le_antisymm (hall last hlast) (hzero.le.trans (Nat.zero_le _))
      · exact ⟨summaryOf kind world e, (mem_listEntities h _).mpr ⟨e, he, rfl⟩, hlength⟩
  distinct := by
    refine ⟨?_, rfl, fun t => ?_⟩
    · rw [uniqueComponentTypes_eq]
      exact Interning.nodup_known _
    · rw [uniqueComponentTypes_eq, Interning.mem_known, List.mem_flatMap]
      constructor
      · rintro ⟨e, _, ht⟩
        exact ⟨e, (h.hasComponent_iff e t).mpr ht⟩
      · rintro ⟨e, hhas⟩
        have ht := (h.hasComponent_iff e t).mp hhas
        exact ⟨e, mem_entityComponents_keys ht, ht⟩

theorem reportsAgree_worldAfter (kind : Symbol → ComponentStorage) (ops : List Op)
    (hfollows : ∀ op ∈ ops, op.Follows kind) : ReportsAgree kind (worldAfter ops) :=
  reportsAgree_of_indexed (invariant_worldAfter ops hfollows)

theorem markedShip_reportsAgree : ReportsAgree markerKind (worldAfter markedShip) :=
  reportsAgree_worldAfter markerKind markedShip (by decide)

end Cougr.Debug
