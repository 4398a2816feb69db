import Cougr.SimpleWorld.Lemmas
import Cougr.Library.VersionedCache

namespace Cougr

structure SimpleQueryCache where
  componentType : Symbol
  cachedResults : List EntityId
  cachedVersion : Nat

namespace SimpleQueryCache

def new (componentType : Symbol) : SimpleQueryCache where
  componentType := componentType
  cachedResults := []
  cachedVersion := 0

def execute (self : SimpleQueryCache) (world : SimpleWorld) : List EntityId × SimpleQueryCache :=
  let self :=
    if self.cachedVersion ≠ world.version then
      { self with
        cachedResults := world.getEntitiesWithComponent self.componentType
        cachedVersion := world.version }
    else self
  (self.cachedResults, self)

-- The results stay; the version of a new world stands for no version.
def invalidate (self : SimpleQueryCache) : SimpleQueryCache := { self with cachedVersion := 0 }

def isValid (self : SimpleQueryCache) (worldVersion : Nat) : Bool := self.cachedVersion = worldVersion

def memory (self : SimpleQueryCache) : Option (Nat × List EntityId) :=
  some (self.cachedVersion, self.cachedResults)

-- The cache keeps to its versions on whatever shows it worlds.
theorem lawful {State : Type} (view : State → SimpleWorld) (t : Symbol) :
    VersionedCache.Lawful (fun state => (view state).version)
      (fun state => (view state).getEntitiesWithComponent t) (fun cache => cache.componentType = t) memory
      (fun cache state => cache.execute (view state)) invalidate := by
  constructor
  · intro cache state habout
    dsimp only [execute]
    split_ifs <;> exact habout
  · exact fun _ habout => habout
  · intro cache state _
    dsimp only [execute, memory]
    split_ifs with hstale
    · rfl
    · rw [not_not.mp hstale]
  · intro cache state habout
    dsimp only [execute, memory]
    split_ifs with hstale
    · exact Or.inl (habout ▸ rfl)
    · exact Or.inr (by rw [not_not.mp hstale])
  · intro cache date value hmemory
    obtain ⟨hdate, hvalue⟩ := Prod.mk.inj (Option.some.inj hmemory)
    refine ⟨cache.cachedVersion, ?_, ?_⟩
    · rw [← hdate]
      exact Nat.zero_le _
    · rw [← hvalue]
      rfl

end SimpleQueryCache

namespace SimpleWorld

theorem getEntitiesWithComponent_congr {first second : SimpleWorld}
    (h : first.entityComponents = second.entityComponents) (t : Symbol) :
    first.getEntitiesWithComponent t = second.getEntitiesWithComponent t := by
  unfold getEntitiesWithComponent
  rw [h]

theorem getEntitiesWithComponent_of_empty {world : SimpleWorld} (hempty : world.entityComponents = Map.new)
    (t : Symbol) : world.getEntitiesWithComponent t = [] := by
  apply List.eq_nil_iff_forall_not_mem.mpr
  intro e he
  have hkey := (Map.mem_keys _ _).mp (List.mem_of_mem_filter he)
  simp [hempty] at hkey

theorem dropType_version (world : SimpleWorld) (e : EntityId) (t : Symbol) :
    (world.dropType e t).version = world.version := by
  unfold dropType
  split
  · rfl
  · dsimp only
    split_ifs <;> rfl

-- Only a spawn leaves the version alone.
def Op.versionsTaken : Op → Nat
  | .spawnEntity => 0
  | _ => 1

theorem version_step (world : SimpleWorld) (op : Op) :
    (world.step op).version = world.version + op.versionsTaken := by
  cases op with
  | spawnEntity => rfl
  | addComponentWithStorage e t data storage => rfl
  | removeComponent e t =>
      rw [step, removeComponent_eq]
      split_ifs
      · exact dropType_version ..
      · rfl
  | despawnEntity e => rfl

theorem versioned (t : Symbol) :
    VersionedCache.Versioned step (fun _ _ => True) version (getEntitiesWithComponent · t) := by
  constructor
  · intro world op _
    rw [version_step]
    exact Nat.le_add_right _ _
  · intro world op _ hversion
    rw [version_step] at hversion
    cases op with
    | spawnEntity => exact getEntitiesWithComponent_congr rfl t
    | addComponentWithStorage e t data storage => simp [Op.versionsTaken] at hversion
    | removeComponent e t => simp [Op.versionsTaken] at hversion
    | despawnEntity e => simp [Op.versionsTaken] at hversion

end SimpleWorld

namespace SimpleQueryCache

open VersionedCache

-- A world and a cache of its own, from their creation on.
def heldAfter (t : Symbol) (calls : List (Call SimpleWorld.Op)) : SimpleWorld × SimpleQueryCache :=
  Transition.run (handle SimpleWorld.step execute invalidate) (SimpleWorld.new, new t) calls

-- Version 0 is the version of a new world too, which has no entities to list: neither a new
-- cache nor an invalidated one takes it for another world.
theorem fresh_new (t : Symbol) : Fresh SimpleWorld.version (SimpleWorld.getEntitiesWithComponent · t) memory
    (new t) SimpleWorld.new := by
  intro date value hmemory
  obtain ⟨rfl, rfl⟩ := Prod.mk.inj (Option.some.inj hmemory)
  refine ⟨Nat.le_refl _, fun _ => ?_⟩
  exact (SimpleWorld.getEntitiesWithComponent_of_empty rfl t).symm

theorem execute_heldAfter (t : Symbol) (calls : List (Call SimpleWorld.Op)) :
    ((heldAfter t calls).2.execute (heldAfter t calls).1).1 =
      (heldAfter t calls).1.getEntitiesWithComponent t := by
  have hlawful := lawful (fun world => world) t
  apply hlawful.execute_run (SimpleWorld.versioned t) rfl (fresh_new t) calls
  exact Transition.stepsMeet_of_forall (Admitted.of_forall fun _ _ => trivial) _ calls

-- A cache that calls itself valid holds the answer.
theorem cachedResults_of_isValid (t : Symbol) (calls : List (Call SimpleWorld.Op))
    (hvalid : (heldAfter t calls).2.isValid (heldAfter t calls).1.version) :
    (heldAfter t calls).2.cachedResults = (heldAfter t calls).1.getEntitiesWithComponent t := by
  have hlawful := lawful (fun world => world) t
  obtain ⟨_, hfresh⟩ := hlawful.fresh_run (SimpleWorld.versioned t) rfl (fresh_new t) calls
    (Transition.stepsMeet_of_forall (Admitted.of_forall fun _ _ => trivial) _ calls)
  exact (hfresh _ _ rfl).2 (of_decide_eq_true hvalid)

section AnyWorlds

-- What is done to a cache that is shown any worlds, one after the other.
inductive Use where
  | execute (world : SimpleWorld)
  | invalidate

def use (self : SimpleQueryCache) : Use → SimpleQueryCache
  | .execute world => (self.execute world).2
  | .invalidate => self.invalidate

def cacheAfter (t : Symbol) (uses : List Use) : SimpleQueryCache := Transition.run use (new t) uses

-- An execution right after an invalidation gives the answer of the world that it is shown.
def Refreshes (cache : SimpleQueryCache) (world : SimpleWorld) : Prop :=
  (cache.invalidate.execute world).1 = world.getEntitiesWithComponent cache.componentType

instance (cache : SimpleQueryCache) (world : SimpleWorld) : Decidable (cache.Refreshes world) :=
  inferInstanceAs (Decidable (_ = _))

theorem componentType_execute (cache : SimpleQueryCache) (world : SimpleWorld) :
    (cache.execute world).2.componentType = cache.componentType := by
  unfold execute
  split_ifs <;> rfl

theorem componentType_cacheAfter (t : Symbol) (uses : List Use) : (cacheAfter t uses).componentType = t := by
  refine Transition.run_invariant_of_step (fun cache : SimpleQueryCache => cache.componentType = t) ?_ rfl uses
  intro cache call habout
  cases call with
  | execute world => exact (cache.componentType_execute world).trans habout
  | invalidate => exact habout

-- The results survive the invalidation, and a world of version 0 is answered with them.
theorem refreshes_iff (cache : SimpleQueryCache) (world : SimpleWorld) : cache.Refreshes world ↔
    (world.version = 0 → cache.cachedResults = world.getEntitiesWithComponent cache.componentType) := by
  by_cases hversion : world.version = 0
  · simp [Refreshes, execute, invalidate, hversion]
  · simp [Refreshes, execute, invalidate, hversion, Ne.symm hversion]

-- A component makes a world list an entity, and a despawn in a new world leaves it without any: one of the
-- two has another answer than a given one.
theorem exists_other_answer (t : Symbol) (answer : List EntityId) :
    ∃ world : SimpleWorld, world.version ≠ 0 ∧ world.getEntitiesWithComponent t ≠ answer := by
  by_cases hempty : answer = []
  · refine ⟨SimpleWorld.new.addComponent 1 t [], Nat.one_ne_zero, ?_⟩
    rw [hempty]
    apply List.ne_nil_of_mem (a := 1)
    simp [SimpleWorld.getEntitiesWithComponent, SimpleWorld.addComponent, SimpleWorld.addComponentWithStorage,
      SimpleWorld.new, Map.mem_keys]
  · refine ⟨SimpleWorld.new.despawnEntity 1, Nat.one_ne_zero, ?_⟩
    rw [SimpleWorld.getEntitiesWithComponent_of_empty rfl]
    exact Ne.symm hempty

-- For a world of version 0 it takes a cache that was shown something else before.
theorem forall_refreshes_iff (t : Symbol) (world : SimpleWorld) :
    (∀ uses, (cacheAfter t uses).Refreshes world) ↔ world.version ≠ 0 := by
  simp only [refreshes_iff, componentType_cacheAfter]
  constructor
  · intro hall hversion
    obtain ⟨other, hother, hanswer⟩ := exists_other_answer t (world.getEntitiesWithComponent t)
    apply hanswer
    have hkept := hall [.execute other] hversion
    rw [← hkept]
    simp [cacheAfter, use, execute, new, Ne.symm hother]
  · exact fun hversion _ hzero => absurd hzero hversion

-- An invalidation takes effect on every world but those of version 0, where the results that the cache
-- was left with are given out again.
theorem invalidate_effective_iff (t : Symbol) (world : SimpleWorld) :
    (∀ uses, (cacheAfter t uses).Refreshes world ↔
      (world.version = 0 → (cacheAfter t uses).cachedResults = world.getEntitiesWithComponent t)) ∧
    ((∀ uses, (cacheAfter t uses).Refreshes world) ↔ world.version ≠ 0) := by
  refine ⟨fun uses => ?_, forall_refreshes_iff t world⟩
  rw [refreshes_iff, componentType_cacheAfter]

-- The cache has served a world with an entity and answers a new one with it.
theorem new_world_answered_from_another :
    ¬(cacheAfter (symbolShort "score")
      [.execute (SimpleWorld.new.addComponent 1 (symbolShort "score") [7])]).Refreshes SimpleWorld.new := by
  decide

end AnyWorlds

end SimpleQueryCache

end Cougr
