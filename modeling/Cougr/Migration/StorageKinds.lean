import Cougr.ArchetypeWorld.Conversion
import Cougr.StorageWorld.RoundTrip

namespace Cougr.Migration

open SimpleWorld (Indexed ReadsAlike)

-- The two ways there and back. The storage may have held anything before.
def throughArchetypes (world : SimpleWorld) : SimpleWorld := (ArchetypeWorld.fromSimpleWorld world).toSimpleWorld

def throughStorage (env : Storage) (world : SimpleWorld) : SimpleWorld :=
  (StorageWorld.reopened (StorageWorld.migrated env world)).toSimpleWorld

def NoSparse (world : SimpleWorld) : Prop := ∀ e t, world.sparseComponents.get (e, t) = none

-- The world that came back has every component in its table map.
structure KindsForgotten (world after : SimpleWorld) : Prop where
  listed : ∀ t, after.getTableEntitiesWithComponent t = world.getEntitiesWithComponent t
  same_iff : (∀ t, after.getTableEntitiesWithComponent t = world.getTableEntitiesWithComponent t) ↔
    NoSparse world

variable {kind : Symbol → ComponentStorage} {world after : SimpleWorld}

-- The table query sees everything exactly when there is nothing else to see.
theorem getTableEntitiesWithComponent_eq_iff (h : Indexed kind world) :
    (∀ t, world.getEntitiesWithComponent t = world.getTableEntitiesWithComponent t) ↔ NoSparse world := by
  constructor
  · intro hsame e t
    by_contra hthere
    obtain ⟨hkind, ht⟩ := (h.sparse e t).mp (Option.isSome_iff_ne_none.mpr hthere)
    have hlisted := (SimpleWorld.mem_getEntitiesWithComponent_iff_listed world e t).mpr ht
    rw [hsame, SimpleWorld.getTableEntitiesWithComponent_eq h, if_neg (by rw [hkind]; exact nofun)] at hlisted
    cases hlisted
  · intro hnone t
    rw [SimpleWorld.getTableEntitiesWithComponent_eq h]
    split_ifs with hkind
    · rfl
    · have hsparse : kind t = .Sparse := by
        cases hcase : kind t with
        | Table => exact absurd hcase hkind
        | Sparse => rfl
      apply List.eq_nil_iff_forall_not_mem.mpr
      intro e he
      have ht := (SimpleWorld.mem_getEntitiesWithComponent_iff_listed world e t).mp he
      have hthere := (h.sparse e t).mpr ⟨hsparse, ht⟩
      rw [hnone] at hthere
      cases hthere

theorem kindsForgotten (h : Indexed kind world) (hafter : Indexed (fun _ => .Table) after)
    (halike : ReadsAlike after world) : KindsForgotten world after := by
  have hlisted : ∀ t, after.getTableEntitiesWithComponent t = world.getEntitiesWithComponent t := by
    intro t
    rw [SimpleWorld.getTableEntitiesWithComponent_eq hafter, if_pos rfl, halike.entities]
  refine ⟨hlisted, ?_⟩
  simp only [hlisted]
  exact getTableEntitiesWithComponent_eq_iff h

theorem kindsForgotten_throughArchetypes (h : Indexed kind world) :
    KindsForgotten world (throughArchetypes world) :=
  kindsForgotten h (ArchetypeWorld.indexed_toSimpleWorld _).1 (ArchetypeWorld.readsAlike_roundTrip h)

theorem kindsForgotten_throughStorage (env : Storage) (h : Indexed kind world) :
    KindsForgotten world (throughStorage env world) :=
  kindsForgotten h (StorageWorld.indexed_reopened env h) (StorageWorld.readsAlike_reopened env h)

-- Neither representation knows the storage kinds: a marker that went there comes back to the table query.
theorem storage_kinds_forgotten (env : Storage) (kind : Symbol → ComponentStorage) (ops : List SimpleWorld.Op)
    (hfollows : ∀ op ∈ ops, op.Follows kind) :
    let world := SimpleWorld.worldAfter ops
    KindsForgotten world (throughArchetypes world) ∧ KindsForgotten world (throughStorage env world) := by
  intro world
  have h : Indexed kind world := SimpleWorld.invariant_worldAfter ops hfollows
  exact ⟨kindsForgotten_throughArchetypes h, kindsForgotten_throughStorage env h⟩

theorem cloak_listed_after_migration :
    let world := SimpleWorld.worldAfter SimpleWorld.markedShip
    (throughArchetypes world).getTableEntitiesWithComponent SimpleWorld.cloak = [1] ∧
      (throughStorage KeyStore.empty world).getTableEntitiesWithComponent SimpleWorld.cloak = [1] :=
  have h := storage_kinds_forgotten KeyStore.empty SimpleWorld.markerKind SimpleWorld.markedShip (by decide)
  ⟨(h.1.listed SimpleWorld.cloak).trans (by decide), (h.2.listed SimpleWorld.cloak).trans (by decide)⟩

-- Before it went, the ship's marker was not in the table query.
theorem storage_kinds_not_kept :
    let world := SimpleWorld.worldAfter SimpleWorld.markedShip
    (∀ op ∈ SimpleWorld.markedShip, op.Follows SimpleWorld.markerKind) ∧
      (¬∀ t, (throughArchetypes world).getTableEntitiesWithComponent t =
        world.getTableEntitiesWithComponent t) ∧
      ¬∀ t, (throughStorage KeyStore.empty world).getTableEntitiesWithComponent t =
        world.getTableEntitiesWithComponent t := by
  intro world
  have hfollows : ∀ op ∈ SimpleWorld.markedShip, op.Follows SimpleWorld.markerKind := by decide
  have h : Indexed SimpleWorld.markerKind world := SimpleWorld.invariant_worldAfter _ hfollows
  have hsparse : ¬NoSparse world := fun hnone => absurd (hnone 1 SimpleWorld.cloak) (by decide)
  refine ⟨hfollows, ?_, ?_⟩
  · exact mt (kindsForgotten_throughArchetypes h).same_iff.mp hsparse
  · exact mt (kindsForgotten_throughStorage KeyStore.empty h).same_iff.mp hsparse

end Cougr.Migration
