import Cougr.Ecs.World
import Mathlib.Logic.Function.Basic

namespace Cougr.Ecs.World

open Transition

-- Resources are added and removed between whatever else is done to the world.
inductive Use where
  | addResource (resource : Resource)
  | removeResource (resourceType : Symbol)
  | other (op : Op)

def use (self : World) : Use → World
  | .addResource resource => self.addResource resource
  | .removeResource resourceType => (self.removeResource resourceType).2
  | .other op => self.step op

def inUse (uses : List Use) : World := run use new uses

-- What the resources are for: a partial map from types to them.
abbrev Resources := Symbol → Option Resource

def Resources.use (resources : Resources) : Use → Resources
  | .addResource resource => Function.update resources resource.resourceType (some resource)
  | .removeResource resourceType => Function.update resources resourceType none
  | .other _ => resources

-- Per type, the resource added last that has not been removed since.
def latest (uses : List Use) : Resources := run Resources.use (fun _ => none) uses

-- What has been added under a type since its last removal, oldest first.
def added (resourceType : Symbol) (uses : List Use) : List Resource :=
  run (fun sofar => fun
    | .addResource resource => if resource.resourceType = resourceType then sofar ++ [resource] else sofar
    | .removeResource other => if other = resourceType then [] else sofar
    | .other _ => sofar) [] uses

-- The readers and the removal of resources see a map, and a type is not touched by what is done to others.
structure HoldsResources (world : World) (resources : Resources) : Prop where
  get : ∀ t, world.getResource t = resources t
  removed : ∀ t, (world.removeResource t).1 = world.getResource t
  gone : ∀ t, (world.removeResource t).2.getResource t = none
  remove_frame : ∀ t other, other ≠ t → (world.removeResource t).2.getResource other = world.getResource other
  add_frame : ∀ resource other, other ≠ resource.resourceType →
    (world.addResource resource).getResource other = world.getResource other

section OneType

variable (world : World) (t other : Symbol)

def ofType : List Resource := world.resources.filter fun res => res.resourceType = t

theorem getResource_eq_head : world.getResource t = (world.ofType t).head? := by
  rw [ofType, List.head?_filter]
  rfl

theorem foldl_found (resources : List Resource) (found : Option Resource) :
    resources.foldl (fun found res => if res.resourceType = t then some res else found) found =
      (resources.filter fun res => res.resourceType = t).getLast?.or found := by
  induction resources generalizing found with
  | nil => rfl
  | cons res resources ih =>
      rw [List.foldl_cons, ih]
      by_cases hres : res.resourceType = t
      · rw [if_pos hres, List.filter_cons_of_pos (by simpa using hres), List.getLast?_cons]
        cases (resources.filter fun res => res.resourceType = t).getLast? <;> rfl
      · rw [if_neg hres, List.filter_cons_of_neg (by simpa using hres)]

theorem removeResource_fst : (world.removeResource t).1 = (world.ofType t).getLast? := by
  unfold removeResource
  dsimp only
  rw [foldl_found, Option.or_none, ← ofType]
  split_ifs <;> rfl

-- When nothing is found the resources that are kept are all of them.
theorem resources_removeResource :
    (world.removeResource t).2.resources = world.resources.filter fun res => res.resourceType ≠ t := by
  unfold removeResource
  dsimp only
  rw [foldl_found, Option.or_none]
  split_ifs with hfound
  · rfl
  · rw [Option.not_isSome_iff_eq_none, List.getLast?_eq_none_iff, List.filter_eq_nil_iff] at hfound
    exact (List.filter_eq_self.mpr fun res hres => by simpa using hfound res hres).symm

theorem ofType_removeResource :
    (world.removeResource t).2.ofType other = if other = t then [] else world.ofType other := by
  rw [ofType, resources_removeResource, List.filter_filter, ofType]
  split_ifs with hsame
  · rw [hsame]
    simp
  · apply List.filter_congr
    intro res _
    by_cases hres : res.resourceType = other
    · simp [hres, hsame]
    · simp [hres]

theorem ofType_addResource (resource : Resource) : (world.addResource resource).ofType other =
    if resource.resourceType = other then world.ofType other ++ [resource] else world.ofType other := by
  rw [ofType, addResource, List.filter_append, ofType]
  split_ifs with hsame <;> simp [hsame]

end OneType

section Runs

theorem resources_foldl_add (world : World) (entityId : EntityId) (components : List Component) :
    (components.foldl (fun world component => world.addComponentToEntity entityId component) world).resources =
      world.resources := by
  induction components generalizing world with
  | nil => rfl
  | cons component components ih => exact ih _

theorem resources_step (world : World) (op : Op) : (world.step op).resources = world.resources := by
  cases op with
  | spawnEmpty => rfl
  | spawn components => exact resources_foldl_add ..
  | addComponentToEntity entityId component => rfl
  | removeComponentFromEntity entityId componentType => rfl
  | despawn entityId => rfl

theorem ofType_inUse (t : Symbol) (uses : List Use) : (inUse uses).ofType t = added t uses := by
  refine run_view (fun world : World => world.ofType t) ?_ new uses
  intro world input
  cases input with
  | addResource resource => exact ofType_addResource world t resource
  | removeResource other =>
      rw [use, ofType_removeResource]
      simp only [eq_comm]
  | other op =>
      rw [use, ofType, resources_step]
      rfl

theorem latest_eq_getLast (t : Symbol) (uses : List Use) : latest uses t = (added t uses).getLast? := by
  induction uses using List.reverseRecOn with
  | nil => rfl
  | append_singleton past last ih =>
      rw [latest, added, run_concat, run_concat, ← latest, ← added]
      cases last with
      | addResource resource =>
          rw [Resources.use, Function.update_apply, ih]
          simp only [eq_comm (a := t)]
          split_ifs <;> simp
      | removeResource other =>
          rw [Resources.use, Function.update_apply, ih]
          simp only [eq_comm (a := t)]
          split_ifs <;> simp
      | other op => exact ih

end Runs

-- Getting takes the oldest of the additions and removing the newest, so the two have to be the same resource.
theorem holdsResources_iff (uses : List Use) :
    HoldsResources (inUse uses) (latest uses) ↔ ∀ t, (added t uses).head? = (added t uses).getLast? := by
  have hget : ∀ t, (inUse uses).getResource t = (added t uses).head? := by
    intro t
    rw [getResource_eq_head, ofType_inUse]
  constructor
  · intro h t
    rw [← hget, h.get, latest_eq_getLast]
  · intro hsame
    constructor
    · intro t
      rw [hget, hsame, latest_eq_getLast]
    · intro t
      rw [removeResource_fst, ofType_inUse, hget, hsame]
    · intro t
      rw [getResource_eq_head, ofType_removeResource, if_pos rfl, List.head?_nil]
    · intro t other hne
      rw [getResource_eq_head, ofType_removeResource, if_neg hne, getResource_eq_head]
    · intro resource other hne
      rw [getResource_eq_head, ofType_addResource, if_neg hne.symm, getResource_eq_head]

-- The gems are added twice: the first ones are still read.
theorem gems_added_twice :
    ¬HoldsResources (inUse [.addResource ⟨symbolShort "gems", [1]⟩, .addResource ⟨symbolShort "gems", [2]⟩])
      (latest [.addResource ⟨symbolShort "gems", [1]⟩, .addResource ⟨symbolShort "gems", [2]⟩]) := by
  intro h
  have hread := h.get (symbolShort "gems")
  revert hread
  decide

end Cougr.Ecs.World
