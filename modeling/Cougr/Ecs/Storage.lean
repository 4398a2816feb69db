import Cougr.Ecs.Entity
import Cougr.SimpleWorld
import Cougr.Library.KeyedList

namespace Cougr.Ecs

structure Component where
  componentType : Symbol
  data : Bytes
  storage : ComponentStorage

def Component.new (componentType : Symbol) (data : Bytes) : Component := ⟨componentType, data, .Table⟩

structure ComponentRegistry where
  nextId : Nat
  components : List (Symbol × Nat)

namespace ComponentRegistry

def new : ComponentRegistry := ⟨1, []⟩

def registerComponent (self : ComponentRegistry) (componentType : Symbol) : Nat × ComponentRegistry :=
  match self.components.find? fun (ctype, _) => ctype = componentType with
  | some (_, id) => (id, self)
  | none => (self.nextId, ⟨self.nextId + 1, self.components ++ [(componentType, self.nextId)]⟩)

def getComponentId (self : ComponentRegistry) (componentType : Symbol) : Option Nat :=
  (self.components.find? fun entry => entry.1 = componentType).map Prod.snd

def getComponentType (self : ComponentRegistry) (componentId : Nat) : Option Symbol :=
  (self.components.find? fun entry => entry.2 = componentId).map Prod.fst

def componentCount (self : ComponentRegistry) : Nat := self.components.length

def isRegistered (self : ComponentRegistry) (componentType : Symbol) : Bool :=
  self.components.any fun entry => entry.1 = componentType

end ComponentRegistry

-- Three arrays side by side, whose entries at one position make a row.
structure Storage where
  entityIds : List Nat
  componentTypes : List Symbol
  componentData : List Bytes

structure Storage.Row where
  entityId : Nat
  componentType : Symbol
  data : Bytes

namespace Storage

def new : Storage := ⟨[], [], []⟩

def row (self : Storage) (i : Nat) : Option Row := do
  let eid ← self.entityIds[i]?
  let ctype ← self.componentTypes[i]?
  let cdata ← self.componentData[i]?
  return ⟨eid, ctype, cdata⟩

-- What the loops over the positions of `entity_ids` see.
def rows (self : Storage) : List Row := (List.range self.entityIds.length).filterMap self.row

def ofRows (rows : List Row) : Storage :=
  ⟨rows.map Row.entityId, rows.map Row.componentType, rows.map Row.data⟩

-- Rows are found by the number of the entity; the generation is not stored.
def Row.key (row : Row) : Nat × Symbol := (row.entityId, row.componentType)

-- The pairs that `has_component` walks over; it does not look at the data.
def pair (self : Storage) (i : Nat) : Option (Nat × Symbol) := do
  let eid ← self.entityIds[i]?
  let ctype ← self.componentTypes[i]?
  return (eid, ctype)

def pairs (self : Storage) : List (Nat × Symbol) := (List.range self.entityIds.length).filterMap self.pair

def removeComponent (self : Storage) (entityId : EntityId) (componentType : Symbol) : Bool × Storage :=
  let found := self.rows.any fun row => row.key = (entityId.id, componentType)
  let kept := self.rows.filter fun row => row.key ≠ (entityId.id, componentType)
  (found, if found then ofRows kept else self)

def addComponent (self : Storage) (entityId : EntityId) (component : Component) : Storage :=
  let self := (self.removeComponent entityId component.componentType).2
  { entityIds := self.entityIds ++ [entityId.id]
    componentTypes := self.componentTypes ++ [component.componentType]
    componentData := self.componentData ++ [component.data] }

def getComponent (self : Storage) (entityId : EntityId) (componentType : Symbol) : Option Component :=
  (self.rows.find? fun row => row.key = (entityId.id, componentType)).map fun row =>
    Component.new row.componentType row.data

def hasComponent (self : Storage) (entityId : EntityId) (componentType : Symbol) : Bool :=
  self.pairs.any (· = (entityId.id, componentType))

def getEntityComponents (self : Storage) (entityId : EntityId) : List Component :=
  (self.rows.filter fun row => row.entityId = entityId.id).map fun row =>
    Component.new row.componentType row.data

section Rows

-- The arrays are of one length, and the rows are all there is.
def Aligned (storage : Storage) : Prop := storage = ofRows storage.rows

theorem row_ofRows (rows : List Row) (i : Nat) : (ofRows rows).row i = rows[i]? := by
  simp only [row, ofRows, List.getElem?_map]
  cases rows[i]? <;> rfl

theorem filterMap_range_getElem? {α : Type} (items : List α) :
    (List.range items.length).filterMap (fun i => items[i]?) = items := by
  induction items with
  | nil => rfl
  | cons first rest ih =>
      rw [List.length_cons, List.range_succ_eq_map, List.filterMap_cons, List.filterMap_map]
      exact congrArg (first :: ·) ih

@[simp] theorem rows_ofRows (rows : List Row) : (ofRows rows).rows = rows := by
  have hrow : (ofRows rows).row = fun i => rows[i]? := funext (row_ofRows rows)
  have hlength : (ofRows rows).entityIds.length = rows.length := List.length_map ..
  rw [Storage.rows, hrow, hlength, filterMap_range_getElem?]

@[simp] theorem pairs_ofRows (rows : List Row) : (ofRows rows).pairs = rows.map Row.key := by
  have hpair : (ofRows rows).pair = fun i => (rows.map Row.key)[i]? := by
    funext i
    simp only [pair, ofRows, List.getElem?_map]
    cases rows[i]? <;> rfl
  have hlength : (ofRows rows).entityIds.length = (rows.map Row.key).length := by simp [ofRows]
  rw [pairs, hpair, hlength, filterMap_range_getElem?]

theorem aligned_ofRows (rows : List Row) : Aligned (ofRows rows) := by rw [Aligned, rows_ofRows]

theorem aligned_new : Aligned new := aligned_ofRows []

variable {storage : Storage} (entityId : EntityId) (componentType : Symbol)

theorem removeComponent_snd (h : storage.Aligned) : (storage.removeComponent entityId componentType).2 =
    ofRows (KeyedList.removeKey Row.key (entityId.id, componentType) storage.rows) := by
  rw [removeComponent]
  split_ifs with hfound
  · rfl
  · have hall : KeyedList.removeKey Row.key (entityId.id, componentType) storage.rows = storage.rows := by
      apply List.filter_eq_self.mpr
      simpa using hfound
    rw [hall]
    exact h

theorem addComponent_eq (h : storage.Aligned) (component : Component) : storage.addComponent entityId component =
    ofRows (KeyedList.removeKey Row.key (entityId.id, component.componentType) storage.rows ++
      [⟨entityId.id, component.componentType, component.data⟩]) := by
  rw [addComponent, removeComponent_snd _ _ h]
  simp only [ofRows, List.map_append, List.map_cons, List.map_nil]

theorem aligned_removeComponent (h : storage.Aligned) :
    (storage.removeComponent entityId componentType).2.Aligned := by
  rw [removeComponent_snd _ _ h]
  exact aligned_ofRows _

theorem aligned_addComponent (h : storage.Aligned) (component : Component) :
    (storage.addComponent entityId component).Aligned := by
  rw [addComponent_eq _ h]
  exact aligned_ofRows _

theorem getComponent_eq_lookup (storage : Storage) (entityId : EntityId) (componentType : Symbol) :
    storage.getComponent entityId componentType =
      (KeyedList.lookup Row.key (entityId.id, componentType) storage.rows).map fun row =>
        Component.new row.componentType row.data := rfl

-- The storage is a map from numbers and types to data; what a component says of its storage kind is lost.

theorem getComponent_removeComponent (h : storage.Aligned) (other : EntityId) (t : Symbol) :
    (storage.removeComponent entityId componentType).2.getComponent other t =
      if (other.id, t) = (entityId.id, componentType) then none else storage.getComponent other t := by
  rw [removeComponent_snd _ _ h, getComponent_eq_lookup, rows_ofRows, KeyedList.lookup_removeKey,
    getComponent_eq_lookup]
  split_ifs <;> rfl

theorem getComponent_addComponent (h : storage.Aligned) (component : Component) (other : EntityId) (t : Symbol) :
    (storage.addComponent entityId component).getComponent other t =
      if (other.id, t) = (entityId.id, component.componentType) then
        some (Component.new component.componentType component.data)
      else storage.getComponent other t := by
  let row : Row := ⟨entityId.id, component.componentType, component.data⟩
  have hlookup : KeyedList.lookup Row.key (other.id, t)
      (KeyedList.removeKey Row.key (entityId.id, component.componentType) storage.rows ++ [row]) =
      if (other.id, t) = (entityId.id, component.componentType) then some row
      else KeyedList.lookup Row.key (other.id, t) storage.rows :=
    KeyedList.lookup_removeKey_concat row (other.id, t) storage.rows
  rw [addComponent_eq _ h, getComponent_eq_lookup, rows_ofRows, hlookup, getComponent_eq_lookup]
  split_ifs <;> rfl

-- Some component is stored under a number.
theorem mem_entityIds_iff (h : storage.Aligned) (e : EntityId) :
    e.id ∈ storage.entityIds ↔ ∃ t, (storage.getComponent e t).isSome := by
  have hids : storage.entityIds = storage.rows.map Row.entityId := congrArg Storage.entityIds h
  simp only [hids, getComponent_eq_lookup, Option.isSome_map, KeyedList.lookup_isSome_iff, List.mem_map, Row.key]
  constructor
  · rintro ⟨row, hrow, hid⟩
    exact ⟨row.componentType, row, hrow, by rw [hid]⟩
  · rintro ⟨t, row, hrow, hkey⟩
    exact ⟨row, hrow, (Prod.mk.inj hkey).1⟩

theorem mem_entityIds_addComponent (h : storage.Aligned) (component : Component) (other : EntityId) :
    other.id ∈ (storage.addComponent entityId component).entityIds ↔
      other.id ∈ storage.entityIds ∨ other.id = entityId.id := by
  rw [mem_entityIds_iff (aligned_addComponent _ h component), mem_entityIds_iff h]
  simp only [getComponent_addComponent entityId h]
  constructor
  · rintro ⟨t, hsome⟩
    split_ifs at hsome with hkey
    · exact Or.inr (Prod.mk.inj hkey).1
    · exact Or.inl ⟨t, hsome⟩
  · rintro (⟨t, hsome⟩ | hid)
    · refine ⟨t, ?_⟩
      split_ifs
      · rfl
      · exact hsome
    · exact ⟨component.componentType, by rw [hid, if_pos rfl]; rfl⟩

theorem mem_entityIds_of_removeComponent (h : storage.Aligned) {other : EntityId}
    (hmem : other.id ∈ (storage.removeComponent entityId componentType).2.entityIds) :
    other.id ∈ storage.entityIds := by
  rw [mem_entityIds_iff (aligned_removeComponent _ _ h)] at hmem
  obtain ⟨t, hsome⟩ := hmem
  rw [getComponent_removeComponent _ _ h] at hsome
  split_ifs at hsome
  · cases hsome
  · exact (mem_entityIds_iff h other).mpr ⟨t, hsome⟩

end Rows

end Storage

end Cougr.Ecs
