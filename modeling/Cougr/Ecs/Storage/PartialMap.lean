import Cougr.Ecs.Storage
import Cougr.Library.Transition
import Mathlib.Logic.Function.Basic

namespace Cougr.Ecs.Storage

open Transition

inductive Op where
  | addComponent (entityId : EntityId) (component : Component)
  | removeComponent (entityId : EntityId) (componentType : Symbol)

def step (self : Storage) : Op → Storage
  | .addComponent entityId component => self.addComponent entityId component
  | .removeComponent entityId componentType => (self.removeComponent entityId componentType).2

def storageAfter (ops : List Op) : Storage := run step new ops

-- What the storage is for: a partial map from the number of an entity and a type to data.
abbrev Contents := Nat × Symbol → Option Bytes

def Contents.step (contents : Contents) : Op → Contents
  | .addComponent e component => Function.update contents (e.id, component.componentType) (some component.data)
  | .removeComponent e t => Function.update contents (e.id, t) none

-- Per pair, the data of the last add that has not been removed since.
def contentsAfter (ops : List Op) : Contents := run Contents.step (fun _ => none) ops

-- The three arrays side by side have every pair at one position.
structure WellFormed (storage : Storage) : Prop where
  aligned : storage.Aligned
  nodup : (storage.rows.map Row.key).Nodup

-- The arrays hold the contents, and their readers and the removal see a map.
structure HoldsMap (storage : Storage) (contents : Contents) : Prop where
  types_length : storage.componentTypes.length = storage.entityIds.length
  data_length : storage.componentData.length = storage.entityIds.length
  pairs_nodup : (storage.entityIds.zip storage.componentTypes).Nodup
  get : ∀ e t, storage.getComponent e t = (contents (e.id, t)).map (Component.new t)
  has : ∀ e t, storage.hasComponent e t ↔ (storage.getComponent e t).isSome
  remove : ∀ e t, (storage.removeComponent e t).1 = true ↔ storage.hasComponent e t
  frame : ∀ e t e' t', (e'.id, t') ≠ (e.id, t) →
    (storage.removeComponent e t).2.getComponent e' t' = storage.getComponent e' t'
  listed : ∀ e component, component ∈ storage.getEntityComponents e ↔
    storage.getComponent e component.componentType = some component
  listed_once : ∀ e, ((storage.getEntityComponents e).map Component.componentType).Nodup

section WellFormed

variable {storage : Storage}

theorem wellFormed_new : WellFormed new := ⟨aligned_new, List.nodup_nil⟩

theorem wellFormed_step (h : storage.WellFormed) (op : Op) : (storage.step op).WellFormed := by
  cases op with
  | addComponent e component =>
      refine ⟨aligned_addComponent e h.aligned component, ?_⟩
      rw [step, addComponent_eq e h.aligned, rows_ofRows]
      exact KeyedList.nodup_removeKey_concat h.nodup ⟨e.id, component.componentType, component.data⟩
  | removeComponent e t =>
      refine ⟨aligned_removeComponent e t h.aligned, ?_⟩
      rw [step, removeComponent_snd e t h.aligned, rows_ofRows]
      exact KeyedList.nodup_filter h.nodup _

theorem Aligned.pairs_eq (h : storage.Aligned) : storage.pairs = storage.rows.map Row.key := by
  have hpairs := pairs_ofRows storage.rows
  rwa [← h] at hpairs

theorem Aligned.entityIds_eq (h : storage.Aligned) : storage.entityIds = storage.rows.map Row.entityId :=
  congrArg entityIds h

theorem Aligned.componentTypes_eq (h : storage.Aligned) :
    storage.componentTypes = storage.rows.map Row.componentType := congrArg componentTypes h

theorem Aligned.componentData_eq (h : storage.Aligned) : storage.componentData = storage.rows.map Row.data :=
  congrArg componentData h

theorem Aligned.zip_eq (h : storage.Aligned) :
    storage.entityIds.zip storage.componentTypes = storage.rows.map Row.key := by
  rw [h.entityIds_eq, h.componentTypes_eq, List.zip_map']
  rfl

theorem Aligned.hasComponent_eq (h : storage.Aligned) (e : EntityId) (t : Symbol) :
    storage.hasComponent e t = (storage.getComponent e t).isSome := by
  rw [hasComponent, h.pairs_eq, List.any_map, getComponent_eq_lookup, Option.isSome_map,
    ← KeyedList.any_eq_isSome_lookup]
  rfl

theorem removeComponent_fst (storage : Storage) (e : EntityId) (t : Symbol) :
    (storage.removeComponent e t).1 = (storage.getComponent e t).isSome := by
  rw [getComponent_eq_lookup, Option.isSome_map, ← KeyedList.any_eq_isSome_lookup]
  rfl

theorem WellFormed.mem_getEntityComponents (h : storage.WellFormed) (e : EntityId) (component : Component) :
    component ∈ storage.getEntityComponents e ↔
      storage.getComponent e component.componentType = some component := by
  rw [getEntityComponents, getComponent_eq_lookup, Option.map_eq_some_iff, List.mem_map]
  simp only [KeyedList.lookup_eq_some_iff h.nodup, List.mem_filter, decide_eq_true_eq, Row.key, Prod.mk.injEq]
  constructor
  · rintro ⟨row, ⟨hrow, hid⟩, rfl⟩
    exact ⟨row, ⟨hrow, hid, rfl⟩, rfl⟩
  · rintro ⟨row, ⟨hrow, hid, _⟩, hcomponent⟩
    exact ⟨row, ⟨hrow, hid⟩, hcomponent⟩

-- Rows of one entity that agree in the type agree in the whole pair.
theorem WellFormed.nodup_getEntityComponents (h : storage.WellFormed) (e : EntityId) :
    ((storage.getEntityComponents e).map Component.componentType).Nodup := by
  have hkeys := KeyedList.nodup_filter h.nodup fun row => row.entityId = e.id
  rw [getEntityComponents, List.map_map]
  refine List.Nodup.map_on ?_ (List.Nodup.of_map _ hkeys)
  intro first hfirst second hsecond htype
  have hids : first.entityId = second.entityId := by
    rw [of_decide_eq_true (List.mem_filter.mp hfirst).2, of_decide_eq_true (List.mem_filter.mp hsecond).2]
  exact List.inj_on_of_nodup_map hkeys hfirst hsecond (Prod.ext hids htype)

end WellFormed

section Runs

theorem contentsAfter_concat (past : List Op) (op : Op) :
    contentsAfter (past ++ [op]) = (contentsAfter past).step op := run_concat ..

theorem storageAfter_concat (past : List Op) (op : Op) :
    storageAfter (past ++ [op]) = (storageAfter past).step op := run_concat ..

theorem wellFormed_storageAfter (ops : List Op) : (storageAfter ops).WellFormed :=
  run_invariant_of_step WellFormed (fun _ op h => wellFormed_step h op) wellFormed_new ops

theorem getComponent_storageAfter (ops : List Op) (e : EntityId) (t : Symbol) :
    (storageAfter ops).getComponent e t = (contentsAfter ops (e.id, t)).map (Component.new t) := by
  induction ops using List.reverseRecOn with
  | nil => rfl
  | append_singleton past op ih =>
      have haligned := (wellFormed_storageAfter past).aligned
      rw [storageAfter_concat, contentsAfter_concat]
      cases op with
      | addComponent e' component =>
          rw [step, getComponent_addComponent e' haligned, ih, Contents.step, Function.update_apply]
          split_ifs with hkey
          · rw [(Prod.mk.inj hkey).2]
            rfl
          · rfl
      | removeComponent e' t' =>
          rw [step, getComponent_removeComponent e' t' haligned, ih, Contents.step, Function.update_apply]
          split_ifs <;> rfl

end Runs

-- After every run of adds and removals the three arrays are the map that the operations make.
theorem holdsMap_storageAfter (ops : List Op) : HoldsMap (storageAfter ops) (contentsAfter ops) := by
  have h := wellFormed_storageAfter ops
  have haligned := h.aligned
  exact {
    types_length := by rw [haligned.componentTypes_eq, haligned.entityIds_eq, List.length_map, List.length_map]
    data_length := by rw [haligned.componentData_eq, haligned.entityIds_eq, List.length_map, List.length_map]
    pairs_nodup := haligned.zip_eq ▸ h.nodup
    get := getComponent_storageAfter ops
    has := fun e t => by rw [haligned.hasComponent_eq]
    remove := fun e t => by rw [removeComponent_fst, haligned.hasComponent_eq]
    frame := fun e t e' t' hne => by rw [getComponent_removeComponent e t haligned, if_neg hne]
    listed := h.mem_getEntityComponents
    listed_once := h.nodup_getEntityComponents }

end Cougr.Ecs.Storage
