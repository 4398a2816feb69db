import Cougr.Ecs.System
import Cougr.Library.Positions

namespace Cougr.Ecs.CollisionSystem

open Positions

variable {vals : SymbolVals}

theorem foldl_collide (world : EventWorld) (met : List (EntityId × EntityId)) :
    met.foldl (fun world pair => world.sendEvent (collide vals pair.1 pair.2)) world =
      { world with events := world.events ++ met.map fun pair => collide vals pair.1 pair.2 } := by
  induction met generalizing world with
  | nil => rw [List.foldl_nil, List.map_nil, List.append_nil]
  | cons pair met ih =>
      rw [List.foldl_cons, ih, List.map_cons, List.append_cons]
      rfl

-- The entities that have a place and a body, in the order of the query.
def colliders (vals : SymbolVals) (world : EventWorld) : List EntityId :=
  world.queryEntities [SimpleWorld.CoreComponent.Position.symbol, (CollisionEvent.trait vals).eventType]

theorem run_eq (vals : SymbolVals) (world : EventWorld) : run vals world = some { world with
    events := world.events ++ (pairs (colliders vals world)).map fun pair => collide vals pair.1 pair.2 } := by
  have hloop := foldlM_pairs_range (fun world first second => world.sendEvent (collide vals first second))
    (colliders vals world) world
  rw [foldl_collide] at hloop
  exact hloop

-- What a listener makes of the events of its type.
def collisions (vals : SymbolVals) (world : EventWorld) : List (Option CollisionEvent) :=
  (world.getEvents (CollisionEvent.trait vals).eventType).map fun event =>
    (CollisionEvent.trait vals).deserialize event.data

theorem collisions_append (world : EventWorld) (met : List (EntityId × EntityId))
    (hphysical : vals.fromPayload (vals.payload physical) = some physical) :
    collisions vals { world with events := world.events ++ met.map fun pair => collide vals pair.1 pair.2 } =
      collisions vals world ++ met.map fun pair => some (collisionEvent pair.1 pair.2) := by
  have hall : ∀ event ∈ met.map fun pair => collide vals pair.1 pair.2,
      decide (event.eventType = (CollisionEvent.trait vals).eventType) = true := by
    intro event hevent
    obtain ⟨pair, _, rfl⟩ := List.mem_map.mp hevent
    exact decide_eq_true rfl
  rw [collisions, EventWorld.getEvents, List.filter_append, List.filter_eq_self.mpr hall,
    List.map_append, List.map_map]
  congr 1
  refine List.map_congr_left fun pair _ => ?_
  have hround := CollisionEvent.deserialize_serialize_append vals (collisionEvent pair.1 pair.2) []
  rw [List.append_nil] at hround
  exact hround.mpr hphysical

-- A run of the system reports every two colliders once, the one listed first before the other, after what
-- was reported before; the rest of the world and the other events are left alone.
theorem collisions_run (vals : SymbolVals) (world : EventWorld)
    (hids : (world.entities.entities.map Entity.id).Nodup)
    (hphysical : vals.fromPayload (vals.payload physical) = some physical) :
    ∃ (next : EventWorld) (met : List (EntityId × EntityId)),
      run vals world = some next ∧ next.toWorld = world.toWorld ∧
      (∀ t, t ≠ (CollisionEvent.trait vals).eventType → next.getEvents t = world.getEvents t) ∧
      collisions vals next = collisions vals world ++ met.map (fun pair => some (collisionEvent pair.1 pair.2)) ∧
      met.Nodup ∧ met.length = (colliders vals world).length.choose 2 ∧
      ∀ first second, (first, second) ∈ met ↔ List.Sublist [first, second] (colliders vals world) := by
  have hcolliders : (colliders vals world).Nodup := by
    rw [colliders, World.queryEntities, EntityManager.iterEntities]
    exact hids.sublist (List.filter_sublist.map Entity.id)
  refine ⟨_, pairs (colliders vals world), run_eq vals world, rfl, fun t ht => ?_,
    collisions_append world _ hphysical, nodup_pairs hcolliders, length_pairs _, fun first second => ?_⟩
  · have hnone : ∀ event ∈ (pairs (colliders vals world)).map fun pair => collide vals pair.1 pair.2,
        ¬decide (event.eventType = t) = true := by
      intro event hevent
      obtain ⟨pair, _, rfl⟩ := List.mem_map.mp hevent
      rw [decide_eq_true_iff]
      exact fun heq => ht heq.symm
    rw [EventWorld.getEvents, List.filter_append, List.filter_eq_nil_iff.mpr hnone, List.append_nil,
      EventWorld.getEvents]
  · exact mem_pairs_iff first second _

section Boxes

-- The codes of the letters in a symbol of at most nine characters.
def letterCode (letter : Char) : Nat :=
  if letter = '_' then 1
  else if letter.isDigit then letter.toNat - 46
  else if letter.isUpper then letter.toNat - 53
  else letter.toNat - 59

-- The host packs six bits a letter above a tag. Of what it reads back only one word is needed here.
def smallSymbol (symbol : Symbol) : UInt64 :=
  UInt64.ofNat ((symbol.text.toList.foldl (fun word letter => word * 64 + letterCode letter) 0) * 256 + 14)

def physicalVals : SymbolVals where
  payload := smallSymbol
  fromPayload word := if word = smallSymbol physical then some physical else none

theorem physicalVals_reads : physicalVals.fromPayload (physicalVals.payload physical) = some physical := by
  simp only [physicalVals, if_true]

def box (id : Nat) : Entity where
  id := ⟨id, 0⟩
  componentTypes := [SimpleWorld.CoreComponent.Position.symbol, (CollisionEvent.trait physicalVals).eventType]

def boxes : EventWorld := { EventWorld.new with entities := ⟨5, [box 1, box 2, Entity.new ⟨3, 0⟩, box 4], []⟩ }

theorem boxes_collide : ∃ (next : EventWorld) (met : List (EntityId × EntityId)),
    run physicalVals boxes = some next ∧ next.toWorld = boxes.toWorld ∧
      (∀ t, t ≠ (CollisionEvent.trait physicalVals).eventType → next.getEvents t = boxes.getEvents t) ∧
      collisions physicalVals next =
        collisions physicalVals boxes ++ met.map (fun pair => some (collisionEvent pair.1 pair.2)) ∧
      met.Nodup ∧ met.length = (colliders physicalVals boxes).length.choose 2 ∧
      ∀ first second, (first, second) ∈ met ↔ List.Sublist [first, second] (colliders physicalVals boxes) :=
  collisions_run physicalVals boxes (by decide) physicalVals_reads

end Boxes

end Cougr.Ecs.CollisionSystem
