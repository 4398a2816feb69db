import Cougr.ArchetypeWorld.Refinement
import Cougr.SimpleWorld.Typed

namespace Cougr

open Macros

-- The same calls on a flat world.
def TypedOp.onFlat {ι : Type} {family : ComponentFamily ι} :
    TypedOp family ArchetypeWorld.Op → TypedOp family SimpleWorld.Op
  | .setTyped e c component => .setTyped e c component
  | .removeTyped e c => .removeTyped e c
  | .raw op => .raw op.flat

namespace ArchetypeWorld

section Methods

variable {T : Type} (world : ArchetypeWorld) (trait : ComponentTrait T) (entityId : EntityId)

def getTyped : Decoded T := do
  let bytes ← OptionT.mk (some (world.getComponent entityId trait.componentType))
  trait.deserialize bytes

-- The storage kind of the type is not asked for.
def setTyped (component : T) : ArchetypeWorld :=
  let symbol := trait.componentType
  let data := trait.serialize component
  world.addComponent entityId symbol data

def hasTyped : Bool := world.hasComponent entityId trait.componentType

def removeTyped : Bool × ArchetypeWorld := world.removeComponent entityId trait.componentType

end Methods

variable {ι : Type} {family : ComponentFamily ι}

def stepTyped (family : ComponentFamily ι) (world : ArchetypeWorld) : TypedOp family Op → ArchetypeWorld
  | .setTyped entityId c component => world.setTyped (family.trait c) entityId component
  | .removeTyped entityId c => (world.removeTyped (family.trait c) entityId).2
  | .raw op => world.step op

def worldAfterTyped (family : ComponentFamily ι) (ops : List (TypedOp family Op)) : ArchetypeWorld :=
  Transition.run (stepTyped family) new ops

structure ShowsTyped (family : ComponentFamily ι) (world : ArchetypeWorld)
    (typed : TypedContents family) : Prop where
  get : ∀ c e, (world.getTyped (family.trait c) e).run = some (typed c e)
  has : ∀ c e, world.hasTyped (family.trait c) e = (typed c e).isSome
  removed : ∀ c e, (world.removeTyped (family.trait c) e).1 = (typed c e).isSome
  listed : ∀ c e, e ∈ world.query [family.componentType c] ↔ (typed c e).isSome

-- Both worlds answer the typed calls alike.
structure AgreesTyped (family : ComponentFamily ι) (world : ArchetypeWorld) (flat : SimpleWorld) : Prop where
  get : ∀ c e, world.getTyped (family.trait c) e = flat.getTyped (family.trait c) e
  has : ∀ c e, world.hasTyped (family.trait c) e = flat.hasTyped (family.trait c) e
  removed : ∀ c e, (world.removeTyped (family.trait c) e).1 = (flat.removeTyped (family.trait c) e).1
  listed : ∀ c e, e ∈ world.query [family.componentType c] ↔
    e ∈ flat.getEntitiesWithComponent (family.componentType c)

section Typed

-- The untyped operation that a typed call amounts to; here every component goes to its archetype.
def untyped : TypedOp family Op → Op
  | .setTyped e c component => .addComponent e (family.componentType c) (family.serialize c component)
  | .removeTyped e c => .removeComponent e (family.componentType c)
  | .raw op => op

theorem stepTyped_eq (world : ArchetypeWorld) (op : TypedOp family Op) :
    stepTyped family world op = world.step (untyped op) := by
  cases op <;> rfl

-- The contents do not tell the storage kind of an addition.
theorem contents_step_untyped (contents : SimpleWorld.Contents) (op : TypedOp family Op) :
    contents.step (untyped op).flat = contents.step op.onFlat.flat := by
  cases op <;> rfl

structure Tracks (world : ArchetypeWorld) (typed : TypedContents family) : Prop where
  wellFormed : WellFormed world
  holds : SimpleWorld.Holds (fun key => world.getComponent key.1 key.2) typed

theorem tracks_step [DecidableEq ι] {world : ArchetypeWorld} {typed : TypedContents family}
    (h : world.Tracks typed) {op : TypedOp family Op} (hop : op.onFlat.LeavesTypes) :
    (stepTyped family world op).Tracks (stepContents family typed op.onFlat) := by
  rw [stepTyped_eq]
  constructor
  · exact wellFormed_step h.wellFormed (untyped op)
  · intro c e
    rw [← SimpleWorld.holds_step h.holds hop c e, ← contents_step_untyped]
    exact getComponent_step h.wellFormed (fun _ _ => rfl) (untyped op) e (family.componentType c)

theorem tracks_worldAfterTyped [DecidableEq ι] (ops : List (TypedOp family Op))
    (hops : ∀ op ∈ ops, op.onFlat.LeavesTypes) :
    (worldAfterTyped family ops).Tracks (typedAfter family (ops.map TypedOp.onFlat)) := by
  induction ops using List.reverseRecOn with
  | nil => exact ⟨wellFormed_new, fun c e => by simp [worldAfterTyped, typedAfter, getComponent, new]⟩
  | append_singleton past op ih =>
      obtain ⟨hpast, hop⟩ := List.forall_mem_append.mp hops
      rw [worldAfterTyped, typedAfter, List.map_append, List.map_singleton, Transition.run_concat,
        Transition.run_concat]
      exact tracks_step (ih hpast) (hop op (List.mem_singleton_self op))

theorem Tracks.showsTyped {world : ArchetypeWorld} {typed : TypedContents family} (h : world.Tracks typed) :
    ShowsTyped family world typed := by
  have hget : ∀ c e, world.getComponent e (family.componentType c) = (typed c e).map (family.serialize c) :=
    fun c e => h.holds c e
  have hhas : ∀ c e, world.hasComponent e (family.componentType c) = (typed c e).isSome := by
    intro c e
    rw [h.wellFormed.hasComponent_eq_isSome, hget, Option.isSome_map]
  constructor
  · intro c e
    rw [getTyped, ← ComponentFamily.componentType, hget]
    exact family.deserialize_serialized c (typed c e)
  · exact hhas
  · intro c e
    rw [removeTyped, (removeComponent_spec h.wellFormed e _).1, ← ComponentFamily.componentType, hget,
      Option.isSome_map]
  · intro c e
    rw [mem_query_singleton h.wellFormed, hhas]

-- A flat world that is given the same calls shows the same map.
theorem agreesTyped_worldAfterTyped [DecidableEq ι] (family : ComponentFamily ι) (ops : List (TypedOp family Op))
    (hops : ∀ op ∈ ops, op.onFlat.LeavesTypes) :
    ShowsTyped family (worldAfterTyped family ops) (typedAfter family (ops.map TypedOp.onFlat)) ∧
    AgreesTyped family (worldAfterTyped family ops)
      (SimpleWorld.worldAfterTyped family (ops.map TypedOp.onFlat)) := by
  have hhere := (tracks_worldAfterTyped ops hops).showsTyped
  have hthere := (SimpleWorld.tracks_worldAfterTyped (ops.map TypedOp.onFlat) (by simpa using hops)).showsTyped
  refine ⟨hhere, fun c e => ?_, fun c e => ?_, fun c e => ?_, fun c e => ?_⟩
  · exact (hhere.get c e).trans (hthere.get c e).symm
  · rw [hhere.has, hthere.has]
  · rw [hhere.removed, hthere.removed]
  · rw [hhere.listed, hthere.listed]

-- A token is set twice and its entity despawned, another stays.
def spent : List (TypedOp SimpleWorld.coreComponents Op) :=
  [.setTyped 1 .Token ((5 : UInt32), Vector.replicate 32 1, ()),
    .setTyped 2 .Token ((6 : UInt32), Vector.replicate 32 2, ()),
    .setTyped 1 .Token ((4 : UInt32), Vector.replicate 32 1, ()), .raw (.despawnEntity 1)]

theorem spent_agrees_typed :
    ShowsTyped SimpleWorld.coreComponents (worldAfterTyped SimpleWorld.coreComponents spent)
      (typedAfter SimpleWorld.coreComponents (spent.map TypedOp.onFlat)) ∧
    AgreesTyped SimpleWorld.coreComponents (worldAfterTyped SimpleWorld.coreComponents spent)
      (SimpleWorld.worldAfterTyped SimpleWorld.coreComponents (spent.map TypedOp.onFlat)) := by
  apply agreesTyped_worldAfterTyped
  intro op hop
  simp only [spent, List.mem_cons, List.not_mem_nil, or_false] at hop
  rcases hop with rfl | rfl | rfl | rfl <;> trivial

end Typed

end ArchetypeWorld

end Cougr
