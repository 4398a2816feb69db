import Cougr.Ecs.System.Runs
import Cougr.Library.Interning

namespace Cougr.Ecs.EventWorld

open Interning

-- Every event waits until the events are cleared, and is read in the order of sending: the systems of the
-- crate neither take one nor add one, since no record of an entity lists a type.
theorem getEvents_after (vals : SymbolVals) (ops : List Op) : ∃ world, after vals ops = some world ∧
    ∀ t, world.getEvents t = (waiting ops).filter (fun event => event.eventType = t) ∧
      ∀ reads, (Transition.run EventReader.step (EventReader.new world.events t) reads).read.1 =
        ((waiting ops).filter fun event => event.eventType = t)[readsSinceReset reads]? := by
  obtain ⟨world, hafter, _, hevents, _⟩ := after_spec vals ops
  refine ⟨world, hafter, fun t => ⟨by rw [getEvents, hevents], fun reads => ?_⟩⟩
  rw [(EventReader.reads_read _).head, (reader_run world.events t reads).1, List.head?_drop, hevents]

section Registry

theorem register_eq (used : List Symbol) :
    register ComponentRegistry.new used = ⟨1 + (known used).length, (known used).zipIdx 1⟩ := by
  induction used using List.reverseRecOn with
  | nil => rfl
  | append_singleton used t ih =>
      rw [register, List.foldl_concat, ← register, ih, ComponentRegistry.registerComponent, find?_name,
        known_concat, learn]
      split_ifs with hold
      · rfl
      · simp only [List.length_append, List.length_singleton, List.zipIdx_append, List.zipIdx_singleton,
          Nat.add_assoc]

-- The number that a type has, or would get.
def number (used : List Symbol) (t : Symbol) : Nat := 1 + (used.takeWhile (· ≠ t)).toFinset.card

theorem number_of_not_mem {used : List Symbol} {t : Symbol} (ht : t ∉ used) :
    number used t = 1 + used.toFinset.card := by
  rw [number, List.takeWhile_eq_self_iff.mpr fun other hother => decide_eq_true (ne_of_mem_of_not_mem hother ht)]

theorem getComponentId_known (used : List Symbol) (t : Symbol) :
    (register ComponentRegistry.new used).getComponentId t = if t ∈ used then some (number used t) else none := by
  rw [register_eq, ComponentRegistry.getComponentId, find?_name]
  by_cases ht : t ∈ used
  · rw [if_pos ((mem_known used t).mpr ht), if_pos ht, idxOf_known ht, number]
    rfl
  · rw [if_neg fun hmem => ht ((mem_known used t).mp hmem), if_neg ht]
    rfl

theorem getComponentType_iff (used : List Symbol) (t : Symbol) (id : Nat) :
    (register ComponentRegistry.new used).getComponentType id = some t ↔
      (register ComponentRegistry.new used).getComponentId t = some id := by
  rw [register_eq, ComponentRegistry.getComponentType, ComponentRegistry.getComponentId, find?_number, find?_name]
  constructor
  · intro htype
    split_ifs at htype with hid
    · obtain ⟨name, hname, rfl⟩ : ∃ name, (known used)[id - 1]? = some name ∧ name = t := by simpa using htype
      have hmem := List.mem_of_getElem? hname
      obtain ⟨hlt, hget⟩ := List.getElem?_eq_some_iff.mp hname
      have hidx : (known used).idxOf name = id - 1 := by
        rw [← hget]
        exact (nodup_known used).idxOf_getElem _ hlt
      rw [if_pos hmem, hidx, Option.map_some]
      congr 1
      omega
    · cases htype
  · intro hnumber
    split_ifs at hnumber with hmem
    · obtain rfl : 1 + (known used).idxOf t = id := by simpa using hnumber
      have hget : (known used)[(known used).idxOf t]? = some t := List.getElem?_idxOf hmem
      rw [if_pos (by omega), Nat.add_sub_cancel_left, hget]
      rfl
    · cases hnumber

theorem registerComponent_known (used : List Symbol) (t : Symbol) :
    ((register ComponentRegistry.new used).registerComponent t).1 = number used t := by
  rw [register_eq, ComponentRegistry.registerComponent, find?_name]
  by_cases ht : t ∈ used
  · rw [if_pos ((mem_known used t).mpr ht), idxOf_known ht, number]
  · rw [if_neg fun hmem => ht ((mem_known used t).mp hmem), number_of_not_mem ht, length_known]

theorem isRegistered_iff (registry : ComponentRegistry) (t : Symbol) :
    registry.isRegistered t ↔ (registry.getComponentId t).isSome := by
  rw [ComponentRegistry.isRegistered, ComponentRegistry.getComponentId, Option.isSome_map, List.find?_isSome,
    List.any_eq_true]

-- Types are numbered from one in the order of their first use, and keep their numbers for good: clearing the
-- world does not clear the registry.
theorem registry_after (vals : SymbolVals) (ops : List Op) : ∃ world, after vals ops = some world ∧
    (∀ t, world.components.isRegistered t ↔ t ∈ registered ops) ∧
    (∀ t, world.components.getComponentId t =
      if t ∈ registered ops then some (number (registered ops) t) else none) ∧
    (∀ t id, world.components.getComponentType id = some t ↔ world.components.getComponentId t = some id) ∧
    world.components.componentCount = (registered ops).toFinset.card ∧
    ∀ t, (world.components.registerComponent t).1 = number (registered ops) t := by
  obtain ⟨world, hafter, _, _, hregistry⟩ := after_spec vals ops
  refine ⟨world, hafter, fun t => ?_, fun t => ?_, fun t id => ?_, ?_, fun t => ?_⟩
  · rw [hregistry, isRegistered_iff, getComponentId_known]
    split_ifs with ht
    · exact iff_of_true rfl ht
    · exact iff_of_false Bool.false_ne_true ht
  · rw [hregistry, getComponentId_known]
  · rw [hregistry, getComponentType_iff]
  · rw [hregistry, register_eq, ComponentRegistry.componentCount, List.length_zipIdx, length_known]
  · rw [hregistry, registerComponent_known]

end Registry

end Cougr.Ecs.EventWorld
