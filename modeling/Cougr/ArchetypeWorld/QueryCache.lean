import Cougr.ArchetypeWorld
import Cougr.Library.VersionedCache

namespace Cougr

structure ArchetypeQueryCache where
  required : List Symbol
  cachedVersion : Nat
  cachedResults : Option (List EntityId)

namespace ArchetypeQueryCache

-- The largest `u64`. A world can reach it; what marks an empty cache are the missing results.
def noVersion : Nat := 18446744073709551615

def new (required : List Symbol) : ArchetypeQueryCache where
  required := required
  cachedVersion := noVersion
  cachedResults := none

def requery (self : ArchetypeQueryCache) (world : ArchetypeWorld) : List EntityId × ArchetypeQueryCache :=
  let results := world.query self.required
  (results, { self with cachedVersion := world.version, cachedResults := some results })

def execute (self : ArchetypeQueryCache) (world : ArchetypeWorld) : List EntityId × ArchetypeQueryCache :=
  if self.cachedVersion = world.version then
    match self.cachedResults with
    | some results => (results, self)
    | none => self.requery world
  else self.requery world

def invalidate (self : ArchetypeQueryCache) : ArchetypeQueryCache :=
  { self with cachedVersion := noVersion, cachedResults := none }

def memory (self : ArchetypeQueryCache) : Option (Nat × List EntityId) :=
  self.cachedResults.map fun results => (self.cachedVersion, results)

-- Either the remembered results have the version of the world, or the world is queried.
theorem execute_cases (self : ArchetypeQueryCache) (world : ArchetypeWorld) :
    (∃ results, self.memory = some (world.version, results) ∧ self.execute world = (results, self)) ∨
      self.execute world = self.requery world := by
  unfold execute
  split_ifs with hversion
  · cases hresults : self.cachedResults with
    | none => exact Or.inr rfl
    | some results =>
        refine Or.inl ⟨results, ?_, rfl⟩
        rw [memory, hresults, hversion]
        rfl
  · exact Or.inr rfl

theorem lawful (required : List Symbol) :
    VersionedCache.Lawful ArchetypeWorld.version (ArchetypeWorld.query · required)
      (fun cache => cache.required = required) memory execute invalidate := by
  constructor
  · intro cache world habout
    obtain ⟨results, _, hexecute⟩ | hexecute := cache.execute_cases world
    · rwa [hexecute]
    · rwa [hexecute]
  · exact fun _ habout => habout
  · intro cache world _
    obtain ⟨results, hmemory, hexecute⟩ | hexecute := cache.execute_cases world
    · rwa [hexecute]
    · rw [hexecute]
      rfl
  · intro cache world habout
    obtain ⟨results, hmemory, hexecute⟩ | hexecute := cache.execute_cases world
    · rw [hexecute]
      exact Or.inr hmemory
    · rw [hexecute]
      exact Or.inl (habout ▸ rfl)
  · intro cache date value hmemory
    simp [memory, invalidate] at hmemory

end ArchetypeQueryCache

namespace ArchetypeWorld

section Version

variable (world : ArchetypeWorld)

theorem version_enterArchetype (e : EntityId) (types : List Symbol) (fill : Archetype → Archetype) :
    (world.enterArchetype e types fill).version = world.version := by
  unfold enterArchetype getOrCreateArchetype
  cases world.archetypeIndex.get types <;> rfl

theorem version_addComponent (e : EntityId) (t : Symbol) (d : Bytes) :
    (world.addComponent e t d).version = world.version + 1 := by
  unfold addComponent
  dsimp only
  split
  · split
    · split_ifs
      · rfl
      · exact version_enterArchetype ..
    · rfl
  · exact version_enterArchetype ..

-- A removal that finds nothing returns early and leaves the world as it was.
theorem removeComponent_cases (e : EntityId) (t : Symbol) :
    (world.removeComponent e t).2 = world ∨
      (world.removeComponent e t).2.version = world.version + 1 := by
  unfold removeComponent
  split
  · exact Or.inl rfl
  · split
    · exact Or.inl rfl
    · dsimp only
      split_ifs
      · exact Or.inr rfl
      · exact Or.inr (version_enterArchetype ..)
      · exact Or.inl rfl

theorem version_despawnEntity (e : EntityId) : (world.despawnEntity e).version = world.version + 1 := by
  unfold despawnEntity
  split <;> rfl

-- A step that keeps the version keeps every archetype.
theorem step_cases (op : Op) :
    (world.step op).archetypes = world.archetypes ∧ (world.step op).version = world.version ∨
      (world.step op).version = world.version + 1 := by
  cases op with
  | spawnEntity => exact Or.inl ⟨rfl, rfl⟩
  | addComponent e t d => exact Or.inr (version_addComponent ..)
  | removeComponent e t =>
      obtain hsame | hversion := world.removeComponent_cases e t
      · left
        rw [step, hsame]
        exact ⟨rfl, rfl⟩
      · exact Or.inr hversion
  | despawnEntity e => exact Or.inr (version_despawnEntity ..)

theorem versioned (required : List Symbol) :
    VersionedCache.Versioned step (fun _ _ => True) version (query · required) := by
  constructor
  · intro world op _
    obtain ⟨_, hversion⟩ | hversion := world.step_cases op <;> omega
  · intro world op _ hkept
    obtain ⟨harchetypes, _⟩ | hversion := world.step_cases op
    · simp only [query, harchetypes]
    · omega

end Version

end ArchetypeWorld

namespace ArchetypeQueryCache

open VersionedCache

-- A world and a cache after a run on both.
def heldAfter (world : ArchetypeWorld) (cache : ArchetypeQueryCache) (calls : List (Call ArchetypeWorld.Op)) :
    ArchetypeWorld × ArchetypeQueryCache :=
  Transition.run (handle ArchetypeWorld.step execute invalidate) (world, cache) calls

-- A cache that remembers nothing can be used with any world.
theorem fresh_of_empty {cache : ArchetypeQueryCache} (hempty : cache.cachedResults = none)
    (world : ArchetypeWorld) :
    Fresh ArchetypeWorld.version (ArchetypeWorld.query · cache.required) memory cache world := by
  intro date value hmemory
  simp [memory, hempty] at hmemory

theorem run_of_empty (cache : ArchetypeQueryCache) (hempty : cache.cachedResults = none)
    (world : ArchetypeWorld) (calls : List (Call ArchetypeWorld.Op)) :
    (heldAfter world cache calls).2.required = cache.required ∧
      ((heldAfter world cache calls).2.execute (heldAfter world cache calls).1).1 =
        (heldAfter world cache calls).1.query cache.required := by
  have hlawful := lawful cache.required
  have hversioned := ArchetypeWorld.versioned cache.required
  have hfresh := fresh_of_empty hempty world
  have hmeet : Transition.StepsMeet (handle ArchetypeWorld.step execute invalidate) (Admitted fun _ _ => True)
      (world, cache) calls :=
    Transition.stepsMeet_of_forall (Admitted.of_forall fun _ _ => trivial) _ calls
  exact ⟨(hlawful.fresh_run hversioned rfl hfresh calls hmeet).1,
    hlawful.execute_run hversioned rfl hfresh calls hmeet⟩

-- From any world on a new cache gives the answers of that world, and once it is invalidated it gives
-- those of any other world as well.
theorem execute_across_worlds (world : ArchetypeWorld) (required : List Symbol)
    (calls : List (Call ArchetypeWorld.Op)) :
    ((heldAfter world (new required) calls).2.execute (heldAfter world (new required) calls).1).1 =
        (heldAfter world (new required) calls).1.query required ∧
      ∀ other later,
        ((heldAfter other (heldAfter world (new required) calls).2.invalidate later).2.execute
            (heldAfter other (heldAfter world (new required) calls).2.invalidate later).1).1 =
          (heldAfter other (heldAfter world (new required) calls).2.invalidate later).1.query required := by
  obtain ⟨hrequired, hexecute⟩ := run_of_empty (new required) rfl world calls
  refine ⟨hexecute, fun other later => ?_⟩
  generalize (heldAfter world (new required) calls).2 = cache at hrequired ⊢
  obtain ⟨_, hother⟩ := run_of_empty cache.invalidate rfl other later
  have habout : cache.invalidate.required = required := hrequired
  rwa [habout] at hother

end ArchetypeQueryCache

end Cougr
