import Cougr.ArchetypeWorld

namespace Cougr

namespace Archetype

variable (self : Archetype) (e : EntityId)

@[simp] theorem hasComponentType_iff (t : Symbol) : self.hasComponentType t ↔ t ∈ self.componentTypes := by
  simp [hasComponentType]

section RemoveEntity

-- The loop of `remove_entity` moves exactly the listed components of the entity.
theorem get_foldl_extractType (types : List Symbol)
    (state : Map Symbol Bytes × Map (EntityId × Symbol) Bytes) (t : Symbol) :
    (types.foldl (extractType e) state).1.get t =
      if t ∈ types then (state.2.get (e, t)).or (state.1.get t) else state.1.get t := by
  induction types generalizing state with
  | nil => simp
  | cons first rest ih =>
      rw [List.foldl_cons, ih]
      by_cases hfirst : t = first
      · subst hfirst
        cases hdata : state.2.get (e, t) with
        | none => simp [extractType, hdata]
        | some d => simp [extractType, hdata]
      · cases hdata : state.2.get (e, first) with
        | none => simp [extractType, hdata, hfirst]
        | some d => simp [extractType, hdata, hfirst, Map.get_set, Map.get_erase]

theorem get_foldl_extractType_data (types : List Symbol)
    (state : Map Symbol Bytes × Map (EntityId × Symbol) Bytes) (key : EntityId × Symbol) :
    (types.foldl (extractType e) state).2.get key =
      if key.1 = e ∧ key.2 ∈ types then none else state.2.get key := by
  induction types generalizing state with
  | nil => simp
  | cons first rest ih =>
      rw [List.foldl_cons, ih]
      by_cases hkey : key = (e, first)
      · subst hkey
        cases hdata : state.2.get (e, first) with
        | none => simp [extractType, hdata]
        | some d => simp [extractType, hdata]
      · have hmem : key.1 = e ∧ key.2 ∈ first :: rest ↔ key.1 = e ∧ key.2 ∈ rest := by
          simp only [List.mem_cons]
          constructor
          · rintro ⟨he, ht | ht⟩
            · exact absurd (Prod.ext he ht) hkey
            · exact ⟨he, ht⟩
          · rintro ⟨he, ht⟩
            exact ⟨he, Or.inr ht⟩
        simp only [hmem]
        cases hdata : state.2.get (e, first) with
        | none => simp [extractType, hdata]
        | some d => simp [extractType, hdata, Map.get_erase, hkey]

@[simp] theorem id_removeEntity : (self.removeEntity e).2.id = self.id := rfl

@[simp] theorem componentTypes_removeEntity :
    (self.removeEntity e).2.componentTypes = self.componentTypes := rfl

@[simp] theorem entities_removeEntity :
    (self.removeEntity e).2.entities = self.entities.filter (· ≠ e) := rfl

theorem get_removeEntity (t : Symbol) :
    (self.removeEntity e).1.get t = if t ∈ self.componentTypes then self.data.get (e, t) else none := by
  have hextract := get_foldl_extractType e self.componentTypes (Map.new, self.data) t
  rw [Map.get_new, Option.or_none] at hextract
  exact hextract

theorem data_removeEntity (key : EntityId × Symbol) :
    (self.removeEntity e).2.data.get key =
      if key.1 = e ∧ key.2 ∈ self.componentTypes then none else self.data.get key :=
  get_foldl_extractType_data e self.componentTypes (Map.new, self.data) key

end RemoveEntity

section Copy

theorem data_setComponent (t : Symbol) (d : Bytes) (key : EntityId × Symbol) :
    (self.setComponent e t d).data.get key = if key = (e, t) then some d else self.data.get key :=
  Map.get_set ..

-- The steps of the copy loop keep everything but the data.
theorem foldl_setComponent_eq (extracted : Map Symbol Bytes) (keys : List Symbol) (target : Archetype) :
    ∃ data, keys.foldl (fun target key =>
      match extracted.get key with
      | some d => target.setComponent e key d
      | none => target) target = { target with data } ∧
      ∀ key, data.get key =
        if key.1 = e ∧ key.2 ∈ keys then (extracted.get key.2).or (target.data.get key)
        else target.data.get key := by
  induction keys generalizing target with
  | nil => exact ⟨target.data, rfl, by simp⟩
  | cons first rest ih =>
      rw [List.foldl_cons]
      cases hextracted : extracted.get first with
      | none =>
          obtain ⟨data, heq, hget⟩ := ih target
          refine ⟨data, heq, fun key => ?_⟩
          rw [hget]
          by_cases hkey : key.2 = first
          · simp [hkey, hextracted]
          · simp [hkey]
      | some d =>
          obtain ⟨data, heq, hget⟩ := ih (target.setComponent e first d)
          refine ⟨data, heq, fun key => ?_⟩
          rw [hget, data_setComponent]
          obtain ⟨e', t⟩ := key
          by_cases he : e' = e
          · by_cases ht : t = first
            · simp [he, ht, hextracted]
            · simp [he, ht]
          · simp [he]

theorem copyExtracted_eq (extracted : Map Symbol Bytes) :
    ∃ data, self.copyExtracted e extracted = { self with data } ∧
      ∀ key, data.get key =
        if key.1 = e then (extracted.get key.2).or (self.data.get key) else self.data.get key := by
  obtain ⟨data, heq, hget⟩ := foldl_setComponent_eq e extracted extracted.keys self
  refine ⟨data, heq, fun key => ?_⟩
  rw [hget]
  simp only [Map.mem_keys]
  cases hextracted : extracted.get key.2 <;> simp

-- `fill` gives the entity the components of `contents` and leaves the rest of an archetype alone.
def Fills (contents : Symbol → Option Bytes) (fill : Archetype → Archetype) : Prop :=
  ∀ target, ∃ data, fill target = { target with data } ∧
    ∀ key, data.get key =
      if key.1 = e then (contents key.2).or (target.data.get key) else target.data.get key

theorem fills_copyExtracted (extracted : Map Symbol Bytes) :
    Fills e extracted.get fun target => target.copyExtracted e extracted :=
  fun target => copyExtracted_eq target e extracted

theorem fills_setComponent (t : Symbol) (d : Bytes) :
    Fills e (fun other => if other = t then some d else none) fun target => target.setComponent e t d := by
  intro target
  refine ⟨_, rfl, fun key => ?_⟩
  rw [Map.get_set]
  obtain ⟨e', other⟩ := key
  by_cases he : e' = e <;> by_cases ht : other = t <;> simp [he, ht]

end Copy

end Archetype

namespace ArchetypeWorld

variable (world : ArchetypeWorld) (e : EntityId)

-- The archetype an entity is in.
def archetypeOf : Option Archetype := (world.entityArchetype.get e).bind world.archetypes.get

theorem getComponent_eq (t : Symbol) :
    world.getComponent e t = (world.archetypeOf e).bind fun arch => arch.data.get (e, t) := by
  unfold getComponent archetypeOf
  cases world.entityArchetype.get e <;> rfl

theorem hasComponent_iff (t : Symbol) :
    world.hasComponent e t ↔ ∃ arch, world.archetypeOf e = some arch ∧ t ∈ arch.componentTypes := by
  unfold hasComponent archetypeOf
  cases world.entityArchetype.get e with
  | none => simp
  | some archId =>
      cases harch : world.archetypes.get archId with
      | none => simp [harch]
      | some arch => simp [harch]

theorem mem_query (required : List Symbol) : e ∈ world.query required ↔
    ∃ archId arch, world.archetypes.get archId = some arch ∧
      (∀ t ∈ required, t ∈ arch.componentTypes) ∧ e ∈ arch.entities := by
  unfold query
  simp only [List.mem_flatMap, Map.mem_keys]
  constructor
  · intro hquery
    obtain ⟨archId, _, hmem⟩ := hquery
    cases harch : world.archetypes.get archId with
    | none => simp [harch] at hmem
    | some arch =>
        by_cases hmatches : arch.matches required
        · have hall : ∀ t ∈ required, t ∈ arch.componentTypes := by simpa [Archetype.matches] using hmatches
          exact ⟨archId, arch, harch, hall, by simpa [harch, hmatches] using hmem⟩
        · simp [harch, hmatches] at hmem
  · intro hmember
    obtain ⟨archId, arch, harch, hall, hmem⟩ := hmember
    have hmatches : arch.matches required := by simpa [Archetype.matches] using hall
    exact ⟨archId, by simp [harch], by simpa [harch, hmatches] using hmem⟩

theorem mem_buildNewTypes (existing : List Symbol) (newType t : Symbol) :
    t ∈ buildNewTypes existing newType ↔ t ∈ existing ∨ t = newType := by
  rw [buildNewTypes, (List.mergeSort_perm _ _).mem_iff]
  simp

-- A type that is not listed yet keeps the list strictly sorted.
theorem sorted_buildNewTypes {existing : List Symbol} {newType : Symbol}
    (hsorted : existing.Pairwise (· < ·)) (hnew : newType ∉ existing) :
    (buildNewTypes existing newType).Pairwise (· < ·) := by
  have hle : (buildNewTypes existing newType).Pairwise (· ≤ ·) := by
    have hpairwise : (buildNewTypes existing newType).Pairwise fun a b => decide (a ≤ b) = true :=
      List.pairwise_mergeSort
        (fun a b c hab hbc => by simpa using le_trans (of_decide_eq_true hab) (of_decide_eq_true hbc))
        (fun a b => by simpa using le_total a b) (existing ++ [newType])
    simpa using hpairwise
  have hexisting : existing.Nodup := hsorted.imp ne_of_lt
  have hnodup : (buildNewTypes existing newType).Nodup := by
    rw [buildNewTypes, (List.mergeSort_perm _ _).nodup_iff, List.nodup_append]
    refine ⟨hexisting, List.nodup_singleton _, ?_⟩
    rintro t ht _ hlast rfl
    exact hnew (List.mem_singleton.mp hlast ▸ ht)
  exact (hle.and hnodup).imp fun h => lt_of_le_of_ne h.1 h.2

end ArchetypeWorld

end Cougr
