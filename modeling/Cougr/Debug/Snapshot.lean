import Cougr.SimpleWorld.Queries

namespace Cougr.Debug

open SimpleWorld

structure WorldSnapshot where
  version : Nat
  entityCount : Nat
  entityStates : Map EntityId (List (Symbol × Bytes))

structure WorldDiff where
  addedEntities : List EntityId
  removedEntities : List EntityId
  addedComponents : List (EntityId × Symbol)
  removedComponents : List (EntityId × Symbol)
  modifiedComponents : List (EntityId × Symbol)

-- The listed types of an entity with their data; a type without data is passed over.
def componentStates (world : SimpleWorld) (eid : EntityId) (types : List Symbol) : List (Symbol × Bytes) :=
  types.filterMap fun t => (world.getComponent eid t).map fun data => (t, data)

-- One turn of the loop over the entities that have a type list.
def recordEntity (world : SimpleWorld) (entityStates : Map EntityId (List (Symbol × Bytes))) (eid : EntityId) :
    Map EntityId (List (Symbol × Bytes)) :=
  match world.entityComponents.get eid with
  | some types => entityStates.set eid (componentStates world eid types)
  | none => entityStates

def takeSnapshot (world : SimpleWorld) : WorldSnapshot where
  version := world.version
  entityCount := world.entityComponents.len
  entityStates := world.entityComponents.keys.foldl (recordEntity world) Map.new

-- The types of `comps` that the scan of `others` does not find.
def missingTypes (comps others : List (Symbol × Bytes)) : List Symbol :=
  (comps.filter fun comp => ¬(others.any fun other => comp.1 = other.1)).map Prod.fst

-- The types of `comps` whose first match in `others` has other data.
def changedTypes (comps others : List (Symbol × Bytes)) : List Symbol :=
  (comps.filter fun comp =>
    match others.find? fun other => comp.1 = other.1 with
    | some (_, data) => comp.2 ≠ data
    | none => false).map Prod.fst

-- One turn of the loop over the entities of the later snapshot.
def compareEntity (before after : WorldSnapshot) (diff : WorldDiff) (eid : EntityId) : WorldDiff :=
  match after.entityStates.get eid, before.entityStates.get eid with
  | some afterComps, some beforeComps =>
    { diff with
      modifiedComponents := diff.modifiedComponents ++ (changedTypes afterComps beforeComps).map (eid, ·)
      addedComponents := diff.addedComponents ++ (missingTypes afterComps beforeComps).map (eid, ·)
      removedComponents := diff.removedComponents ++ (missingTypes beforeComps afterComps).map (eid, ·) }
  | _, _ =>
    if after.entityStates.containsKey eid ∧ ¬before.entityStates.containsKey eid then
      match after.entityStates.get eid with
      | some comps => { diff with addedComponents := diff.addedComponents ++ comps.map fun (t, _) => (eid, t) }
      | none => diff
    else diff

def diffSnapshots (before after : WorldSnapshot) : WorldDiff :=
  after.entityStates.keys.foldl (compareEntity before after) {
    addedEntities := after.entityStates.keys.filter fun eid => ¬before.entityStates.containsKey eid
    removedEntities := before.entityStates.keys.filter fun eid => ¬after.entityStates.containsKey eid
    addedComponents := []
    removedComponents := []
    modifiedComponents := [] }

section Pairs

variable {ι τ : Type}

-- The values of each key, paired with the key.
def pairsOf (keys : List ι) (values : ι → List τ) : List (ι × τ) :=
  keys.flatMap fun key => (values key).map (key, ·)

theorem mem_pairsOf {keys : List ι} {values : ι → List τ} {key : ι} {value : τ} :
    (key, value) ∈ pairsOf keys values ↔ key ∈ keys ∧ value ∈ values key := by
  simp only [pairsOf, List.mem_flatMap, List.mem_map, Prod.mk.injEq]
  constructor
  · rintro ⟨_, hkey, _, hvalue, rfl, rfl⟩
    exact ⟨hkey, hvalue⟩
  · rintro ⟨hkey, hvalue⟩
    exact ⟨key, hkey, value, hvalue, rfl, rfl⟩

theorem nodup_pairsOf {keys : List ι} {values : ι → List τ} (hkeys : keys.Nodup)
    (hvalues : ∀ key ∈ keys, (values key).Nodup) : (pairsOf keys values).Nodup := by
  rw [pairsOf, List.nodup_flatMap]
  constructor
  · exact fun key hkey => (hvalues key hkey).map (Prod.mk_right_injective key)
  · refine hkeys.imp fun hne pair hfirst hsecond => hne ?_
    obtain ⟨_, _, rfl⟩ := List.mem_map.mp hfirst
    obtain ⟨_, _, hpair⟩ := List.mem_map.mp hsecond
    exact (Prod.mk.inj hpair).1.symm

end Pairs

section Diff

variable (before after : WorldSnapshot)

-- What the loop finds out about one entity.

def addedTypes (eid : EntityId) : List Symbol :=
  match after.entityStates.get eid, before.entityStates.get eid with
  | some afterComps, some beforeComps => missingTypes afterComps beforeComps
  | some afterComps, none => afterComps.map Prod.fst
  | none, _ => []

def removedTypes (eid : EntityId) : List Symbol :=
  match after.entityStates.get eid, before.entityStates.get eid with
  | some afterComps, some beforeComps => missingTypes beforeComps afterComps
  | _, _ => []

def modifiedTypes (eid : EntityId) : List Symbol :=
  match after.entityStates.get eid, before.entityStates.get eid with
  | some afterComps, some beforeComps => changedTypes afterComps beforeComps
  | _, _ => []

theorem compareEntity_eq (diff : WorldDiff) (eid : EntityId) : compareEntity before after diff eid =
    { diff with
      addedComponents := diff.addedComponents ++ (addedTypes before after eid).map (eid, ·)
      removedComponents := diff.removedComponents ++ (removedTypes before after eid).map (eid, ·)
      modifiedComponents := diff.modifiedComponents ++ (modifiedTypes before after eid).map (eid, ·) } := by
  unfold compareEntity addedTypes removedTypes modifiedTypes
  cases hafter : after.entityStates.get eid with
  | none => simp [Map.containsKey_eq_isSome, hafter]
  | some afterComps =>
      cases hbefore : before.entityStates.get eid with
      | none => simp [Map.containsKey_eq_isSome, hafter, hbefore]
      | some beforeComps => rfl

theorem foldl_compareEntity (eids : List EntityId) (diff : WorldDiff) :
    eids.foldl (compareEntity before after) diff =
      { diff with
        addedComponents := diff.addedComponents ++ pairsOf eids (addedTypes before after)
        removedComponents := diff.removedComponents ++ pairsOf eids (removedTypes before after)
        modifiedComponents := diff.modifiedComponents ++ pairsOf eids (modifiedTypes before after) } := by
  induction eids generalizing diff with
  | nil => simp [pairsOf]
  | cons eid eids ih =>
      rw [List.foldl_cons, ih, compareEntity_eq]
      simp only [pairsOf, List.flatMap_cons, List.append_assoc]

theorem diffSnapshots_eq : diffSnapshots before after =
    { addedEntities := after.entityStates.keys.filter fun eid => ¬before.entityStates.containsKey eid
      removedEntities := before.entityStates.keys.filter fun eid => ¬after.entityStates.containsKey eid
      addedComponents := pairsOf after.entityStates.keys (addedTypes before after)
      removedComponents := pairsOf after.entityStates.keys (removedTypes before after)
      modifiedComponents := pairsOf after.entityStates.keys (modifiedTypes before after) } := by
  rw [diffSnapshots, foldl_compareEntity]
  rfl

end Diff

end Cougr.Debug
