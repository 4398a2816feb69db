import Cougr.Debug.Snapshot
import Cougr.SimpleWorld.Entries
import Cougr.Library.KeyedList

namespace Cougr.Debug

open SimpleWorld

section Scans

variable {comps others : List (Symbol × Bytes)} {t : Symbol}

theorem mem_missingTypes : t ∈ missingTypes comps others ↔ t ∈ comps.map Prod.fst ∧
    t ∉ others.map Prod.fst := by
  simp only [missingTypes, List.mem_map, List.mem_filter, decide_eq_true_eq, List.any_eq_true,
    not_exists, not_and]
  constructor
  · rintro ⟨comp, ⟨hcomp, hfound⟩, rfl⟩
    exact ⟨⟨comp, hcomp, rfl⟩, fun other hother heq => hfound other hother heq.symm⟩
  · rintro ⟨⟨comp, hcomp, rfl⟩, hfound⟩
    exact ⟨comp, ⟨hcomp, fun other hother heq => hfound other hother heq.symm⟩, rfl⟩

theorem nodup_missingTypes (hcomps : (comps.map Prod.fst).Nodup) : (missingTypes comps others).Nodup :=
  KeyedList.nodup_filter hcomps _

-- With one entry for a type the scan compares the two data of the type.
theorem mem_changedTypes (hothers : (others.map Prod.fst).Nodup) : t ∈ changedTypes comps others ↔
    ∃ data data', (t, data) ∈ comps ∧ (t, data') ∈ others ∧ data ≠ data' := by
  have hlookup : ∀ u, (others.find? fun other => u = other.1) = KeyedList.lookup Prod.fst u others := by
    intro u
    simp only [eq_comm (a := u)]
    rfl
  simp only [changedTypes, hlookup, List.mem_map, List.mem_filter]
  constructor
  · rintro ⟨⟨u, data⟩, ⟨hcomp, hchanged⟩, rfl⟩
    cases hmatch : KeyedList.lookup Prod.fst u others with
    | none => simp [hmatch] at hchanged
    | some other =>
        obtain ⟨hother, hkey⟩ := (KeyedList.lookup_eq_some_iff hothers).mp hmatch
        obtain ⟨u', data'⟩ := other
        cases hkey
        refine ⟨data, data', hcomp, hother, ?_⟩
        simpa [hmatch] using hchanged
  · rintro ⟨data, data', hcomp, hother, hne⟩
    have hmatch := (KeyedList.lookup_eq_some_iff hothers).mpr ⟨hother, rfl⟩
    exact ⟨(t, data), ⟨hcomp, by simpa [hmatch] using hne⟩, rfl⟩

theorem nodup_changedTypes (hcomps : (comps.map Prod.fst).Nodup) : (changedTypes comps others).Nodup :=
  KeyedList.nodup_filter hcomps _

end Scans

section Snapshots

-- What a snapshot is for: the components of a world, entity by entity and each type once.
structure Shows (snapshot : WorldSnapshot) (contents : EntityId → Symbol → Option Bytes) : Prop where
  nonempty : ∀ e comps, snapshot.entityStates.get e = some comps → comps ≠ []
  nodup : ∀ e comps, snapshot.entityStates.get e = some comps → (comps.map Prod.fst).Nodup
  shown : ∀ e t data, contents e t = some data ↔
    ∃ comps, snapshot.entityStates.get e = some comps ∧ (t, data) ∈ comps

theorem get_foldl_recordEntity (world : SimpleWorld) (eids : List EntityId)
    (states : Map EntityId (List (Symbol × Bytes))) (e : EntityId) :
    (eids.foldl (recordEntity world) states).get e =
      if e ∈ eids then ((world.entityComponents.get e).map (componentStates world e)).or (states.get e)
      else states.get e := by
  induction eids generalizing states with
  | nil => rfl
  | cons eid eids ih =>
      rw [List.foldl_cons, ih, recordEntity]
      by_cases hhere : e = eid
      · subst hhere
        cases world.entityComponents.get e <;> simp
      · cases world.entityComponents.get eid <;> simp [hhere, Map.get_set]

theorem get_takeSnapshot (world : SimpleWorld) (e : EntityId) :
    (takeSnapshot world).entityStates.get e = (world.entityComponents.get e).map (componentStates world e) := by
  have hfold := get_foldl_recordEntity world world.entityComponents.keys Map.new e
  rw [Map.get_new, Option.or_none] at hfold
  rw [takeSnapshot, hfold]
  split_ifs with hkey
  · rfl
  · rw [Map.mem_keys, Bool.not_eq_true, Option.isSome_eq_false_iff, Option.isNone_iff_eq_none] at hkey
    rw [hkey]
    rfl

variable {kind : Symbol → ComponentStorage} {world : SimpleWorld}

theorem types_of_get {e : EntityId} {types : List Symbol} (hlist : world.entityComponents.get e = some types) :
    world.types e = types := by
  rw [SimpleWorld.types, hlist, Option.getD_some]

-- Every listed type has data, so none is passed over.
theorem types_componentStates (h : Indexed kind world) {e : EntityId} {types : List Symbol}
    (hlist : world.entityComponents.get e = some types) :
    (componentStates world e types).map Prod.fst = types := by
  rw [componentStates, List.map_filterMap]
  have hsome : ∀ t ∈ types, ((world.getComponent e t).map fun data => (t, data)).map Prod.fst = some t := by
    intro t ht
    rw [← types_of_get hlist, ← h.isSome_getComponent_iff] at ht
    obtain ⟨data, hdata⟩ := Option.isSome_iff_exists.mp ht
    rw [hdata]
    rfl
  rw [List.filterMap_congr hsome, List.filterMap_some]

theorem mem_componentStates {e : EntityId} {types : List Symbol} {t : Symbol} {data : Bytes} :
    (t, data) ∈ componentStates world e types ↔ t ∈ types ∧ world.getComponent e t = some data := by
  simp only [componentStates, List.mem_filterMap, Option.map_eq_some_iff, Prod.mk.injEq]
  constructor
  · rintro ⟨_, ht, _, hdata, rfl, rfl⟩
    exact ⟨ht, hdata⟩
  · rintro ⟨ht, hdata⟩
    exact ⟨t, ht, data, hdata, rfl, rfl⟩

theorem shows_takeSnapshot (h : Indexed kind world) : Shows (takeSnapshot world) world.getComponent := by
  constructor
  · intro e comps hcomps
    rw [get_takeSnapshot, Option.map_eq_some_iff] at hcomps
    obtain ⟨types, hlist, rfl⟩ := hcomps
    have htypes := types_componentStates h hlist
    intro hempty
    rw [hempty, List.map_nil] at htypes
    exact (h.lists e types hlist).1 htypes.symm
  · intro e comps hcomps
    rw [get_takeSnapshot, Option.map_eq_some_iff] at hcomps
    obtain ⟨types, hlist, rfl⟩ := hcomps
    rw [types_componentStates h hlist]
    exact (h.lists e types hlist).2
  · intro e t data
    simp only [get_takeSnapshot, Option.map_eq_some_iff]
    constructor
    · intro hdata
      have ht : t ∈ world.types e := (h.isSome_getComponent_iff e t).mp (by rw [hdata]; rfl)
      obtain ⟨types, hlist⟩ := Option.isSome_iff_exists.mp ((Map.mem_keys _ _).mp (mem_entityComponents_keys ht))
      refine ⟨_, ⟨types, hlist, rfl⟩, mem_componentStates.mpr ⟨?_, hdata⟩⟩
      rwa [types_of_get hlist] at ht
    · rintro ⟨comps, ⟨types, _, rfl⟩, hcomp⟩
      exact (mem_componentStates.mp hcomp).2

variable {snapshot : WorldSnapshot} {contents : EntityId → Symbol → Option Bytes}

theorem Shows.isSome_iff (h : Shows snapshot contents) (e : EntityId) (t : Symbol) : (contents e t).isSome ↔
    ∃ comps, snapshot.entityStates.get e = some comps ∧ t ∈ comps.map Prod.fst := by
  simp only [Option.isSome_iff_exists, h.shown, List.mem_map, Prod.exists, exists_and_right, exists_eq_right]
  constructor
  · rintro ⟨data, comps, hcomps, hcomp⟩
    exact ⟨comps, hcomps, data, hcomp⟩
  · rintro ⟨comps, hcomps, data, hcomp⟩
    exact ⟨data, comps, hcomps, hcomp⟩

-- An entity is in the snapshot when it has some component.
theorem Shows.containsKey_iff (h : Shows snapshot contents) (e : EntityId) :
    snapshot.entityStates.containsKey e ↔ ∃ t, (contents e t).isSome := by
  simp only [Map.containsKey_eq_isSome, h.isSome_iff]
  constructor
  · intro hin
    obtain ⟨comps, hcomps⟩ := Option.isSome_iff_exists.mp hin
    obtain ⟨comp, hcomp⟩ := List.exists_mem_of_ne_nil _ (h.nonempty e comps hcomps)
    exact ⟨comp.1, comps, hcomps, List.mem_map_of_mem hcomp⟩
  · rintro ⟨_, comps, hcomps, _⟩
    rw [hcomps]
    rfl

theorem Shows.isSome_of_get (h : Shows snapshot contents) {e : EntityId} {comps : List (Symbol × Bytes)}
    (hcomps : snapshot.entityStates.get e = some comps) (t : Symbol) :
    (contents e t).isSome ↔ t ∈ comps.map Prod.fst := by
  rw [h.isSome_iff]
  simp [hcomps]

theorem Shows.eq_none_of_get (h : Shows snapshot contents) {e : EntityId}
    (hnone : snapshot.entityStates.get e = none) (t : Symbol) : contents e t = none := by
  rw [← Option.not_isSome_iff_eq_none, h.isSome_iff]
  simp [hnone]

-- The types that a snapshot shows for an entity.
def WorldSnapshot.typesOf (snapshot : WorldSnapshot) (e : EntityId) : List Symbol :=
  ((snapshot.entityStates.get e).getD []).map Prod.fst

theorem Shows.mem_typesOf (h : Shows snapshot contents) (e : EntityId) (t : Symbol) :
    t ∈ snapshot.typesOf e ↔ (contents e t).isSome := by
  unfold WorldSnapshot.typesOf
  cases hcomps : snapshot.entityStates.get e with
  | none => simp [h.eq_none_of_get hcomps]
  | some comps => exact (h.isSome_of_get hcomps t).symm

theorem Shows.nodup_typesOf (h : Shows snapshot contents) (e : EntityId) : (snapshot.typesOf e).Nodup := by
  unfold WorldSnapshot.typesOf
  cases hcomps : snapshot.entityStates.get e with
  | none => exact List.nodup_nil
  | some comps => exact h.nodup e comps hcomps

end Snapshots

section Diff

variable {before after : WorldSnapshot} {old new : EntityId → Symbol → Option Bytes}

theorem mem_addedTypes (hbefore : Shows before old) (hafter : Shows after new) (e : EntityId) (t : Symbol) :
    t ∈ addedTypes before after e ↔ old e t = none ∧ (new e t).isSome := by
  unfold addedTypes
  cases hcomps : after.entityStates.get e with
  | none => simp [hafter.eq_none_of_get hcomps]
  | some comps =>
      rw [hafter.isSome_of_get hcomps]
      cases hothers : before.entityStates.get e with
      | none => simp [hbefore.eq_none_of_get hothers]
      | some others =>
          rw [← Option.not_isSome_iff_eq_none, hbefore.isSome_of_get hothers, mem_missingTypes, and_comm]

-- Only where the entity is still there.
theorem mem_removedTypes (hbefore : Shows before old) (hafter : Shows after new) (e : EntityId) (t : Symbol) :
    t ∈ removedTypes before after e ↔
      (old e t).isSome ∧ new e t = none ∧ after.entityStates.containsKey e := by
  unfold removedTypes
  cases hcomps : after.entityStates.get e with
  | none => simp [Map.containsKey_eq_isSome, hcomps]
  | some comps =>
      rw [← Option.not_isSome_iff_eq_none, hafter.isSome_of_get hcomps]
      cases hothers : before.entityStates.get e with
      | none => simp [hbefore.eq_none_of_get hothers]
      | some others =>
          rw [hbefore.isSome_of_get hothers, mem_missingTypes, Map.containsKey_eq_isSome, hcomps]
          simp

theorem mem_modifiedTypes (hbefore : Shows before old) (hafter : Shows after new) (e : EntityId) (t : Symbol) :
    t ∈ modifiedTypes before after e ↔
      ∃ data data', old e t = some data ∧ new e t = some data' ∧ data ≠ data' := by
  simp only [hbefore.shown, hafter.shown]
  unfold modifiedTypes
  cases hcomps : after.entityStates.get e with
  | none => simp
  | some comps =>
      cases hothers : before.entityStates.get e with
      | none => simp
      | some others =>
          simp only [mem_changedTypes (hbefore.nodup e others hothers), Option.some.injEq, exists_eq_left']
          constructor
          · rintro ⟨data', data, hcomp, hother, hne⟩
            exact ⟨data, data', hother, hcomp, hne.symm⟩
          · rintro ⟨data, data', hother, hcomp, hne⟩
            exact ⟨data', data, hcomp, hother, hne.symm⟩

theorem nodup_addedTypes (hafter : Shows after new) (e : EntityId) : (addedTypes before after e).Nodup := by
  unfold addedTypes
  split
  · rename_i comps others hcomps _
    exact nodup_missingTypes (hafter.nodup e comps hcomps)
  · rename_i comps hcomps _
    exact hafter.nodup e comps hcomps
  · exact List.nodup_nil

theorem nodup_removedTypes (hbefore : Shows before old) (e : EntityId) : (removedTypes before after e).Nodup := by
  unfold removedTypes
  split
  · rename_i comps others _ hothers
    exact nodup_missingTypes (hbefore.nodup e others hothers)
  · exact List.nodup_nil

theorem nodup_modifiedTypes (hafter : Shows after new) (e : EntityId) : (modifiedTypes before after e).Nodup := by
  unfold modifiedTypes
  split
  · rename_i comps others hcomps _
    exact nodup_changedTypes (hafter.nodup e comps hcomps)
  · exact List.nodup_nil

-- A component that the later snapshot shows is one of an entity that it walks over.
theorem Shows.mem_keys (hafter : Shows after new) {e : EntityId} {t : Symbol} (hsome : (new e t).isSome) :
    e ∈ after.entityStates.keys := by
  rw [Map.mem_keys, ← Map.containsKey_eq_isSome]
  exact (hafter.containsKey_iff e).mpr ⟨t, hsome⟩

theorem mem_addedComponents (hbefore : Shows before old) (hafter : Shows after new) (e : EntityId) (t : Symbol) :
    (e, t) ∈ (diffSnapshots before after).addedComponents ↔ old e t = none ∧ (new e t).isSome := by
  rw [diffSnapshots_eq, mem_pairsOf, mem_addedTypes hbefore hafter]
  exact and_iff_right_of_imp fun h => hafter.mem_keys h.2

theorem mem_removedComponents (hbefore : Shows before old) (hafter : Shows after new) (e : EntityId)
    (t : Symbol) : (e, t) ∈ (diffSnapshots before after).removedComponents ↔
      (old e t).isSome ∧ new e t = none ∧ after.entityStates.containsKey e := by
  rw [diffSnapshots_eq, mem_pairsOf, mem_removedTypes hbefore hafter, Map.mem_keys, ← Map.containsKey_eq_isSome]
  exact and_iff_right_of_imp fun h => h.2.2

theorem mem_modifiedComponents (hbefore : Shows before old) (hafter : Shows after new) (e : EntityId)
    (t : Symbol) : (e, t) ∈ (diffSnapshots before after).modifiedComponents ↔
      ∃ data data', old e t = some data ∧ new e t = some data' ∧ data ≠ data' := by
  rw [diffSnapshots_eq, mem_pairsOf, mem_modifiedTypes hbefore hafter]
  apply and_iff_right_of_imp
  rintro ⟨_, _, _, hnew, _⟩
  exact hafter.mem_keys (t := t) (by rw [hnew]; rfl)

theorem mem_addedEntities (e : EntityId) : e ∈ (diffSnapshots before after).addedEntities ↔
    after.entityStates.containsKey e ∧ ¬before.entityStates.containsKey e := by
  rw [diffSnapshots_eq, List.mem_filter, Map.mem_keys, ← Map.containsKey_eq_isSome, decide_eq_true_eq]

theorem mem_removedEntities (e : EntityId) : e ∈ (diffSnapshots before after).removedEntities ↔
    before.entityStates.containsKey e ∧ ¬after.entityStates.containsKey e := by
  rw [diffSnapshots_eq, List.mem_filter, Map.mem_keys, ← Map.containsKey_eq_isSome, decide_eq_true_eq]

end Diff

end Cougr.Debug
