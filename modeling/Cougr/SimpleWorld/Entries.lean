import Cougr.SimpleWorld.Queries
import Cougr.Library.Replay

namespace Cougr.SimpleWorld

open Replay

-- The reads and the table additions as those of a partial map.
def read (world : SimpleWorld) (key : EntityId × Symbol) : Option Bytes := world.getComponent key.1 key.2

def write (world : SimpleWorld) (key : EntityId × Symbol) (data : Bytes) : SimpleWorld :=
  world.addComponent key.1 key.2 data

-- The components that the type lists lead to, in the order in which a conversion meets them.
def entries (world : SimpleWorld) : List ((EntityId × Symbol) × Bytes) :=
  world.entityComponents.keys.flatMap fun e =>
    (world.types e).filterMap fun t => (world.getComponent e t).map fun data => ((e, t), data)

-- Two worlds that no read tells apart, the table query aside.
structure ReadsAlike (first second : SimpleWorld) : Prop where
  getComponent : ∀ e t, first.getComponent e t = second.getComponent e t
  hasComponent : ∀ e t, first.hasComponent e t = second.hasComponent e t
  entities : ∀ t, first.getEntitiesWithComponent t = second.getEntitiesWithComponent t
  nextEntityId : first.nextEntityId = second.nextEntityId
  version : first.version = second.version

variable {kind : Symbol → ComponentStorage} {world : SimpleWorld}

theorem Indexed.isSome_getComponent_iff (h : Indexed kind world) (e : EntityId) (t : Symbol) :
    (world.getComponent e t).isSome ↔ t ∈ world.types e := by
  rw [← hasComponent_eq_isSome, h.hasComponent_iff]

theorem Indexed.lists_entries (h : Indexed kind world) : Lists world.entries world.read := by
  intro key data
  obtain ⟨e, t⟩ := key
  simp only [entries, read, List.mem_flatMap, List.mem_filterMap, Option.map_eq_some_iff, Prod.mk.injEq]
  constructor
  · rintro ⟨e', _, t', _, data', hdata, ⟨rfl, rfl⟩, rfl⟩
    exact hdata
  · intro hdata
    have ht : t ∈ world.types e := (h.isSome_getComponent_iff e t).mp (by rw [hdata]; rfl)
    exact ⟨e, mem_entityComponents_keys ht, t, ht, data, hdata, ⟨rfl, rfl⟩, rfl⟩

-- An addition to the table map is a write, as long as nothing is in the sparse map.
theorem writes (next : EntityId) :
    Writes (fun world => Indexed (fun _ => .Table) world ∧ world.nextEntityId = next) read write where
  keeps := by
    rintro world ⟨e, t⟩ data ⟨h, hnext⟩
    exact ⟨indexed_add h e t data, hnext⟩
  shows := by
    rintro world ⟨e, t⟩ data ⟨h, _⟩ ⟨other, u⟩
    have hstep := h.getComponent_step (.addComponentWithStorage e t data .Table) rfl other u
    simp only [step, Contents.step, Function.update_apply] at hstep
    exact hstep

-- The index answers the queries, so worlds that are indexed read alike when their components do.
theorem readsAlike {kind' : Symbol → ComponentStorage} {other : SimpleWorld} (h : Indexed kind world)
    (hother : Indexed kind' other) (hget : ∀ e t, world.getComponent e t = other.getComponent e t)
    (hnext : world.nextEntityId = other.nextEntityId) (hversion : world.version = other.version) :
    ReadsAlike world other where
  getComponent := hget
  hasComponent e t := by rw [hasComponent_eq_isSome, hasComponent_eq_isSome, hget]
  entities t := by
    rw [getEntitiesWithComponent_eq_iff]
    intro e
    rw [← h.isSome_getComponent_iff, ← hother.isSome_getComponent_iff, hget]
  nextEntityId := hnext
  version := hversion

def hull : Symbol := symbolShort "hull"

def cloak : Symbol := symbolShort "cloak"

-- Only the marker is sparse.
def markerKind (t : Symbol) : ComponentStorage := if t = cloak then .Sparse else .Table

-- An entity with one component of each kind.
def markedShip : List Op :=
  [.spawnEntity, .addComponentWithStorage 1 hull [9] .Table, .addComponentWithStorage 1 cloak [] .Sparse]

end Cougr.SimpleWorld
