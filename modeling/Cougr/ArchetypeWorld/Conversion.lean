import Cougr.ArchetypeWorld.QueryCache
import Cougr.ArchetypeWorld.Refinement
import Cougr.SimpleWorld.Entries

namespace Cougr

open Replay

namespace Archetype

-- The two inner loops of `to_simple_world`.
def copyComponent (self : Archetype) (entityId : EntityId) (world : SimpleWorld) (componentType : Symbol) :
    SimpleWorld :=
  match self.getComponent entityId componentType with
  | some data => world.addComponent entityId componentType data
  | none => world

def copyEntity (self : Archetype) (world : SimpleWorld) (entityId : EntityId) : SimpleWorld :=
  self.componentTypes.foldl (self.copyComponent entityId) world

-- The components in the order of these loops.
def entries (self : Archetype) : List ((EntityId × Symbol) × Bytes) :=
  self.entities.flatMap fun e =>
    self.componentTypes.filterMap fun t => (self.getComponent e t).map fun data => ((e, t), data)

end Archetype

namespace ArchetypeWorld

section ToSimpleWorld

def copyArchetype (self : ArchetypeWorld) (world : SimpleWorld) (key : ArchetypeId) : SimpleWorld :=
  match self.archetypes.get key with
  | some arch => arch.entities.foldl arch.copyEntity world
  | none => world

def toSimpleWorld (self : ArchetypeWorld) : SimpleWorld :=
  let world := { SimpleWorld.new with nextEntityId := self.nextEntityId }
  let world := self.archetypes.keys.foldl self.copyArchetype world
  { world with version := self.version }

variable (self : ArchetypeWorld)

def read (key : EntityId × Symbol) : Option Bytes := self.getComponent key.1 key.2

def write (key : EntityId × Symbol) (data : Bytes) : ArchetypeWorld := self.addComponent key.1 key.2 data

def entries : List ((EntityId × Symbol) × Bytes) :=
  self.archetypes.keys.flatMap fun key =>
    match self.archetypes.get key with
    | some arch => arch.entries
    | none => []

theorem foldl_copyEntity (arch : Archetype) (world : SimpleWorld) :
    arch.entities.foldl arch.copyEntity world = replay SimpleWorld.write world arch.entries := by
  simp only [replay, Archetype.entries, List.foldl_flatMap, List.foldl_filterMap]
  congr
  funext world e
  unfold Archetype.copyEntity
  congr
  funext world t
  unfold Archetype.copyComponent
  cases arch.getComponent e t <;> rfl

theorem toSimpleWorld_eq : self.toSimpleWorld =
    { replay SimpleWorld.write { SimpleWorld.new with nextEntityId := self.nextEntityId } self.entries with
      version := self.version } := by
  have hloop : ∀ world : SimpleWorld,
      self.archetypes.keys.foldl self.copyArchetype world = replay SimpleWorld.write world self.entries := by
    intro world
    rw [replay, entries, List.foldl_flatMap]
    congr
    funext world key
    unfold copyArchetype
    cases self.archetypes.get key with
    | none => rfl
    | some arch => exact foldl_copyEntity arch world
  simp only [toSimpleWorld, hloop]

variable {self}

theorem mem_entries (h : WellFormed self) (e : EntityId) (t : Symbol) (data : Bytes) :
    ((e, t), data) ∈ self.entries ↔ ∃ id arch, self.archetypes.get id = some arch ∧ e ∈ arch.entities ∧
      arch.getComponent e t = some data := by
  simp only [entries, List.mem_flatMap, Map.mem_keys]
  constructor
  · rintro ⟨id, hid, hmem⟩
    obtain ⟨arch, harch⟩ := Option.isSome_iff_exists.mp hid
    simp only [harch, Archetype.entries, List.mem_flatMap, List.mem_filterMap, Option.map_eq_some_iff,
      Prod.mk.injEq] at hmem
    obtain ⟨e', he, t', _, data', hdata, ⟨rfl, rfl⟩, rfl⟩ := hmem
    exact ⟨id, arch, harch, he, hdata⟩
  · rintro ⟨id, arch, harch, he, hdata⟩
    have hstored := ((h.archetypes id arch harch).stored e t).mp (by
      rw [← Archetype.getComponent, hdata]
      rfl)
    refine ⟨id, by rw [harch]; rfl, ?_⟩
    simp only [harch, Archetype.entries, List.mem_flatMap, List.mem_filterMap, Option.map_eq_some_iff,
      Prod.mk.injEq]
    exact ⟨e, he, t, hstored.2, data, hdata, ⟨rfl, rfl⟩, rfl⟩

theorem WellFormed.lists_entries (h : WellFormed self) : Lists self.entries self.read := by
  intro key data
  obtain ⟨e, t⟩ := key
  rw [mem_entries h]
  constructor
  · rintro ⟨id, arch, harch, he, hdata⟩
    have hhome := ((h.archetypes id arch harch).members e).mp he
    simpa [read, getComponent, hhome, harch] using hdata
  · intro hdata
    simp only [read, getComponent, Option.bind_eq_bind, Option.bind_eq_some_iff] at hdata
    obtain ⟨id, hhome, arch, harch, hdata⟩ := hdata
    exact ⟨id, arch, harch, ((h.archetypes id arch harch).members e).mpr hhome, hdata⟩

-- The flat world is rebuilt from nothing but the counter.
theorem indexed_start (next : EntityId) :
    SimpleWorld.Indexed (fun _ => .Table) { SimpleWorld.new with nextEntityId := next } := by
  have hnew := @SimpleWorld.indexed_new fun _ => .Table
  exact ⟨hnew.table, hnew.sparse, hnew.lists⟩

variable (self) in
theorem indexed_toSimpleWorld : SimpleWorld.Indexed (fun _ => .Table) self.toSimpleWorld ∧
    self.toSimpleWorld.nextEntityId = self.nextEntityId := by
  have hrun := (SimpleWorld.writes self.nextEntityId).inv_replay ⟨indexed_start _, rfl⟩ self.entries
  rw [toSimpleWorld_eq]
  exact ⟨⟨hrun.1.table, hrun.1.sparse, hrun.1.lists⟩, hrun.2⟩

theorem getComponent_toSimpleWorld (h : WellFormed self) (e : EntityId) (t : Symbol) :
    self.toSimpleWorld.getComponent e t = self.getComponent e t := by
  have hempty : ∀ key,
      SimpleWorld.read { SimpleWorld.new with nextEntityId := self.nextEntityId } key = none := by
    intro key
    simp [SimpleWorld.read, SimpleWorld.getComponent, SimpleWorld.new]
  have hread := (SimpleWorld.writes self.nextEntityId).get_replay_of_lists ⟨indexed_start _, rfl⟩ hempty
    h.lists_entries (e, t)
  rw [toSimpleWorld_eq]
  exact hread

theorem version_toSimpleWorld (self : ArchetypeWorld) : self.toSimpleWorld.version = self.version := rfl

end ToSimpleWorld

section FromSimpleWorld

-- The inner loop of `from_simple_world`.
def takeComponent (simple : SimpleWorld) (entityId : EntityId) (world : ArchetypeWorld) (componentType : Symbol) :
    ArchetypeWorld :=
  match simple.getComponent entityId componentType with
  | some data => world.addComponent entityId componentType data
  | none => world

def takeEntity (simple : SimpleWorld) (world : ArchetypeWorld) (entityId : EntityId) : ArchetypeWorld :=
  match simple.entityComponents.get entityId with
  | some types => types.foldl (takeComponent simple entityId) world
  | none => world

def fromSimpleWorld (simple : SimpleWorld) : ArchetypeWorld :=
  let world := { new with nextEntityId := simple.nextEntityId }
  let world := simple.entityComponents.keys.foldl (takeEntity simple) world
  { world with version := simple.version }

variable (simple : SimpleWorld)

theorem fromSimpleWorld_eq : fromSimpleWorld simple =
    { replay write { new with nextEntityId := simple.nextEntityId } simple.entries with
      version := simple.version } := by
  have hloop : ∀ world : ArchetypeWorld,
      simple.entityComponents.keys.foldl (takeEntity simple) world = replay write world simple.entries := by
    intro world
    simp only [replay, SimpleWorld.entries, List.foldl_flatMap, List.foldl_filterMap]
    congr
    funext world e
    unfold takeEntity SimpleWorld.types
    cases simple.entityComponents.get e with
    | none => rfl
    | some types =>
        simp only [Option.getD_some]
        congr
        funext world t
        unfold takeComponent
        cases simple.getComponent e t <;> rfl
  simp only [fromSimpleWorld, hloop]

theorem writes (next : EntityId) :
    Writes (fun world => WellFormed world ∧ world.nextEntityId = next) read write where
  keeps := by
    rintro world ⟨e, t⟩ data ⟨h, hnext⟩
    have hcounter := nextEntityId_step world (.addComponent e t data)
    exact ⟨(addComponent_spec data h e t).1, hcounter.trans hnext⟩
  shows := by
    rintro world ⟨e, t⟩ data ⟨h, _⟩ ⟨other, u⟩
    exact (addComponent_spec data h e t).2 other u

theorem wellFormed_start (next : EntityId) : WellFormed { new with nextEntityId := next } :=
  ⟨wellFormed_new.archetypes, wellFormed_new.index, wellFormed_new.homes⟩

theorem wellFormed_fromSimpleWorld :
    WellFormed (fromSimpleWorld simple) ∧ (fromSimpleWorld simple).nextEntityId = simple.nextEntityId := by
  have hrun := (writes simple.nextEntityId).inv_replay ⟨wellFormed_start _, rfl⟩ simple.entries
  rw [fromSimpleWorld_eq]
  exact ⟨hrun.1.withVersion simple.version, hrun.2⟩

variable {simple} {kind : Symbol → ComponentStorage}

theorem getComponent_fromSimpleWorld (h : SimpleWorld.Indexed kind simple) (e : EntityId) (t : Symbol) :
    (fromSimpleWorld simple).getComponent e t = simple.getComponent e t := by
  have hempty : ∀ key, read { new with nextEntityId := simple.nextEntityId } key = none := by
    intro key
    simp [read, getComponent, new]
  have hread := (writes simple.nextEntityId).get_replay_of_lists ⟨wellFormed_start _, rfl⟩ hempty
    h.lists_entries (e, t)
  rw [fromSimpleWorld_eq]
  exact hread

theorem version_fromSimpleWorld (simple : SimpleWorld) : (fromSimpleWorld simple).version = simple.version := rfl

end FromSimpleWorld

section Lossless

-- A flat world and an archetype world that answer alike; the order of a query aside.
structure AnswersAs (simple : SimpleWorld) (world : ArchetypeWorld) : Prop where
  getComponent : ∀ e t, world.getComponent e t = simple.getComponent e t
  hasComponent : ∀ e t, world.hasComponent e t = simple.hasComponent e t
  query : ∀ t, (world.query [t]).Perm (simple.getEntitiesWithComponent t)
  nextEntityId : world.nextEntityId = simple.nextEntityId
  version : world.version = simple.version

variable {simple : SimpleWorld} {world : ArchetypeWorld} {kind : Symbol → ComponentStorage}

theorem answersAs (hsimple : SimpleWorld.Indexed kind simple) (h : WellFormed world)
    (hget : ∀ e t, world.getComponent e t = simple.getComponent e t)
    (hnext : world.nextEntityId = simple.nextEntityId) (hversion : world.version = simple.version) :
    AnswersAs simple world := by
  have hhas : ∀ e t, world.hasComponent e t = simple.hasComponent e t := by
    intro e t
    rw [h.hasComponent_eq_isSome, SimpleWorld.hasComponent_eq_isSome, hget]
  refine ⟨hget, hhas, fun t => ?_, hnext, hversion⟩
  have hnodup : (simple.getEntitiesWithComponent t).Nodup :=
    ((SimpleWorld.ascending_keys _).filter _).imp ne_of_lt
  apply (List.perm_ext_iff_of_nodup (nodup_query h [t]) hnodup).mpr
  intro e
  rw [mem_query_singleton h, SimpleWorld.mem_getEntitiesWithComponent hsimple, hhas]

theorem answersAs_fromSimpleWorld (h : SimpleWorld.Indexed kind simple) :
    AnswersAs simple (fromSimpleWorld simple) := by
  obtain ⟨hwell, hnext⟩ := wellFormed_fromSimpleWorld simple
  exact answersAs h hwell (getComponent_fromSimpleWorld h) hnext (version_fromSimpleWorld simple)

theorem answersAs_toSimpleWorld (h : WellFormed world) : AnswersAs world.toSimpleWorld world := by
  obtain ⟨hindexed, hnext⟩ := indexed_toSimpleWorld world
  exact answersAs hindexed h (fun e t => (getComponent_toSimpleWorld h e t).symm) hnext.symm
    (version_toSimpleWorld world).symm

-- Two archetype worlds that answer alike; their archetypes may be numbered differently.
structure Agree (first second : ArchetypeWorld) : Prop where
  getComponent : ∀ e t, first.getComponent e t = second.getComponent e t
  hasComponent : ∀ e t, first.hasComponent e t = second.hasComponent e t
  query : ∀ t, (first.query [t]).Perm (second.query [t])
  nextEntityId : first.nextEntityId = second.nextEntityId
  version : first.version = second.version

theorem AnswersAs.agree {other : ArchetypeWorld} (h : AnswersAs simple other) (hworld : AnswersAs simple world) :
    Agree other world where
  getComponent e t := (h.getComponent e t).trans (hworld.getComponent e t).symm
  hasComponent e t := (h.hasComponent e t).trans (hworld.hasComponent e t).symm
  query t := (h.query t).trans (hworld.query t).symm
  nextEntityId := h.nextEntityId.trans hworld.nextEntityId.symm
  version := h.version.trans hworld.version.symm

-- The flat world comes back reading as it did; the table query is another matter.
theorem readsAlike_roundTrip (h : SimpleWorld.Indexed kind simple) :
    SimpleWorld.ReadsAlike (fromSimpleWorld simple).toSimpleWorld simple := by
  obtain ⟨hwell, hnext⟩ := wellFormed_fromSimpleWorld simple
  obtain ⟨hindexed, hback⟩ := indexed_toSimpleWorld (fromSimpleWorld simple)
  refine SimpleWorld.readsAlike hindexed h (fun e t => ?_) (hback.trans hnext) rfl
  rw [getComponent_toSimpleWorld hwell, getComponent_fromSimpleWorld h]

-- Neither direction loses anything a caller can ask for, and so neither does a way there and back.
theorem conversions_lossless (kind : Symbol → ComponentStorage) (ops : List SimpleWorld.Op)
    (hfollows : ∀ op ∈ ops, op.Follows kind) (archetypeOps : List Op) :
    let simple := SimpleWorld.worldAfter ops
    let world := worldAfter archetypeOps
    AnswersAs simple (fromSimpleWorld simple) ∧
    (AnswersAs world.toSimpleWorld world ∧ SimpleWorld.Indexed (fun _ => .Table) world.toSimpleWorld) ∧
    SimpleWorld.ReadsAlike (fromSimpleWorld simple).toSimpleWorld simple ∧
    Agree (fromSimpleWorld world.toSimpleWorld) world := by
  intro simple world
  have hsimple : SimpleWorld.Indexed kind simple := SimpleWorld.invariant_worldAfter ops hfollows
  have hworld : WellFormed world := invariant_worldAfter archetypeOps
  have hconverted := (indexed_toSimpleWorld world).1
  exact ⟨answersAs_fromSimpleWorld hsimple, ⟨answersAs_toSimpleWorld hworld, hconverted⟩,
    readsAlike_roundTrip hsimple, (answersAs_fromSimpleWorld hconverted).agree (answersAs_toSimpleWorld hworld)⟩

theorem marked_ship_lossless :
    let simple := SimpleWorld.worldAfter SimpleWorld.markedShip
    (fromSimpleWorld simple).getComponent 1 SimpleWorld.cloak = some [] ∧
      SimpleWorld.ReadsAlike (fromSimpleWorld simple).toSimpleWorld simple :=
  have h := conversions_lossless SimpleWorld.markerKind SimpleWorld.markedShip (by decide) []
  ⟨(h.1.getComponent 1 SimpleWorld.cloak).trans (by decide), h.2.2.1⟩

end Lossless

end ArchetypeWorld

end Cougr
