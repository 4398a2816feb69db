import Cougr.Debug.Snapshot
import Cougr.SimpleWorld.Entries

namespace Cougr.Debug

open SimpleWorld

structure EntitySummary where
  entityId : EntityId
  componentCount : Nat
  componentTypes : List Symbol
  tableCount : Nat
  sparseCount : Nat

structure WorldSummary where
  entityCount : Nat
  totalComponents : Nat
  tableEntries : Nat
  sparseEntries : Nat
  version : Nat
  nextEntityId : EntityId

-- One turn of the loop over the types of an entity.
def countType (world : SimpleWorld) (entityId : EntityId) (counts : Nat × Nat) (t : Symbol) : Nat × Nat :=
  if world.components.containsKey (entityId, t) then (counts.1 + 1, counts.2)
  else if world.sparseComponents.containsKey (entityId, t) then (counts.1, counts.2 + 1)
  else counts

def inspectEntity (world : SimpleWorld) (entityId : EntityId) : Option EntitySummary := do
  let types ← world.entityComponents.get entityId
  let (tableCount, sparseCount) := types.foldl (countType world entityId) (0, 0)
  return {
    entityId, componentCount := tableCount + sparseCount, componentTypes := types, tableCount, sparseCount }

def inspectWorld (world : SimpleWorld) : WorldSummary where
  entityCount := world.entityComponents.len
  totalComponents := world.components.len + world.sparseComponents.len
  tableEntries := world.components.len
  sparseEntries := world.sparseComponents.len
  version := world.version
  nextEntityId := world.nextEntityId

def listEntities (world : SimpleWorld) : List EntitySummary :=
  world.entityComponents.keys.filterMap (inspectEntity world)

structure StorageMetrics where
  totalTableEntries : Nat
  totalSparseEntries : Nat
  totalEntities : Nat
  avgComponentsPerEntity : Nat
  maxComponentsPerEntity : Nat
  uniqueComponentTypes : Nat

-- One turn of the loop over the entities.
def raiseMax (world : SimpleWorld) (maxComponents : Nat) (eid : EntityId) : Nat :=
  match world.entityComponents.get eid with
  | some types => if types.length > maxComponents then types.length else maxComponents
  | none => maxComponents

def pushType (types : List Symbol) (t : Symbol) : List Symbol := if types.any (· = t) then types else types ++ [t]

def uniqueComponentTypes (world : SimpleWorld) : List Symbol :=
  world.entityComponents.keys.foldl (fun types eid =>
    match world.entityComponents.get eid with
    | some entityTypes => entityTypes.foldl pushType types
    | none => types) []

def collectMetrics (world : SimpleWorld) : StorageMetrics :=
  let entityCount := world.entityComponents.len
  let totalComponents := world.components.len + world.sparseComponents.len
  { totalTableEntries := world.components.len
    totalSparseEntries := world.sparseComponents.len
    totalEntities := entityCount
    avgComponentsPerEntity := if entityCount > 0 then totalComponents / entityCount else 0
    maxComponentsPerEntity := world.entityComponents.keys.foldl (raiseMax world) 0
    uniqueComponentTypes := (uniqueComponentTypes world).length }

section Entity

variable {kind : Symbol → ComponentStorage} {world : SimpleWorld}

def ofKind (kind : Symbol → ComponentStorage) (storage : ComponentStorage) (types : List Symbol) : List Symbol :=
  types.filter fun t => kind t = storage

theorem length_ofKind (kind : Symbol → ComponentStorage) (types : List Symbol) :
    (ofKind kind .Table types).length + (ofKind kind .Sparse types).length = types.length := by
  induction types with
  | nil => rfl
  | cons t types ih =>
      simp only [ofKind] at ih ⊢
      cases hkind : kind t <;> simp [hkind] <;> omega

-- Every listed type is stored, in the map of its kind.
theorem foldl_countType (h : Indexed kind world) (e : EntityId) {types : List Symbol}
    (hlisted : ∀ t ∈ types, t ∈ world.types e) (counts : Nat × Nat) :
    types.foldl (countType world e) counts =
      (counts.1 + (ofKind kind .Table types).length, counts.2 + (ofKind kind .Sparse types).length) := by
  induction types generalizing counts with
  | nil => rfl
  | cons t types ih =>
      obtain ⟨ht, hrest⟩ := List.forall_mem_cons.mp hlisted
      have htable := h.table e t
      have hsparse := h.sparse e t
      rw [List.foldl_cons, ih hrest, countType]
      simp only [Map.containsKey_eq_isSome, ofKind]
      cases hkind : kind t with
      | Table =>
          rw [if_pos (htable.mpr ⟨hkind, ht⟩)]
          simp [hkind]
          omega
      | Sparse =>
          have hnot : ¬(world.components.get (e, t)).isSome := by
            rw [htable, hkind]
            exact fun hin => absurd hin.1 (by decide)
          rw [if_neg hnot, if_pos (hsparse.mpr ⟨hkind, ht⟩)]
          simp [hkind]
          omega

def summaryOf (kind : Symbol → ComponentStorage) (world : SimpleWorld) (e : EntityId) : EntitySummary where
  entityId := e
  componentCount := (world.types e).length
  componentTypes := world.types e
  tableCount := (ofKind kind .Table (world.types e)).length
  sparseCount := (ofKind kind .Sparse (world.types e)).length

theorem inspectEntity_eq (h : Indexed kind world) {e : EntityId} (he : e ∈ world.entityComponents.keys) :
    inspectEntity world e = some (summaryOf kind world e) := by
  obtain ⟨types, htypes⟩ := Option.isSome_iff_exists.mp ((Map.mem_keys _ e).mp he)
  have hsame : world.types e = types := by rw [SimpleWorld.types, htypes, Option.getD_some]
  have hcount : types.foldl (countType world e) (0, 0) =
      (0 + (ofKind kind .Table types).length, 0 + (ofKind kind .Sparse types).length) :=
    foldl_countType h e (fun t ht => hsame ▸ ht) (0, 0)
  rw [Nat.zero_add, Nat.zero_add] at hcount
  rw [inspectEntity, htypes, summaryOf, hsame]
  simp only [Option.bind_eq_bind, Option.bind_some, hcount, length_ofKind]
  rfl

theorem listEntities_eq (h : Indexed kind world) :
    listEntities world = world.entityComponents.keys.map (summaryOf kind world) := by
  rw [listEntities, ← List.filterMap_eq_map]
  exact List.filterMap_congr fun e he => inspectEntity_eq h he

end Entity

end Cougr.Debug
