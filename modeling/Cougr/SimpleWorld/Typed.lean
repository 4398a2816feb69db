import Cougr.Macros.Exact
import Cougr.SimpleWorld.Presence

namespace Cougr

open Macros

-- Component types that live side by side: each is read back from its bytes, and no two share a symbol.
structure ComponentFamily (ι : Type) where
  Value : ι → Type
  trait : ∀ c, ComponentTrait (Value c)
  roundTrip : ∀ c value, (trait c).deserialize ((trait c).serialize value) = pure value
  apart : Function.Injective fun c => (trait c).componentType

theorem implComponent_roundTrip (symbol : Symbol) (storage : ComponentStorage) {fields : List FieldType}
    (hsize : (fields.map fieldSize).sum < 2 ^ 32) (value : Record fields) :
    (implComponent symbol storage fields).deserialize ((implComponent symbol storage fields).serialize value) =
      pure value := (exact_of_size hsize).roundTrip value

namespace ComponentFamily

variable {ι : Type} (family : ComponentFamily ι)

def componentType (c : ι) : Symbol := (family.trait c).componentType

def serialize (c : ι) (component : family.Value c) : Bytes := (family.trait c).serialize component

-- What is stored of a member is read as it was written.
theorem deserialize_serialized (c : ι) (value : Option (family.Value c)) :
    (do
      let bytes ← OptionT.mk (some (value.map (family.serialize c)))
      (family.trait c).deserialize bytes : Decoded (family.Value c)).run = some value := by
  cases value with
  | none => rfl
  | some value => exact family.roundTrip c value

end ComponentFamily

-- Calls of the typed methods for the members of a family, and whatever else is done to the world.
inductive TypedOp {ι : Type} (family : ComponentFamily ι) (Op : Type) where
  | setTyped (entityId : EntityId) (c : ι) (component : family.Value c)
  | removeTyped (entityId : EntityId) (c : ι)
  | raw (op : Op)

namespace TypedOp

variable {ι : Type} {family : ComponentFamily ι}

-- The untyped operation that a call of a typed method amounts to.
def flat : TypedOp family SimpleWorld.Op → SimpleWorld.Op
  | .setTyped e c component =>
    .addComponentWithStorage e (family.componentType c) (family.serialize c component)
      (family.trait c).defaultStorage
  | .removeTyped e c => .removeComponent e (family.componentType c)
  | .raw op => op

-- An untyped operation neither adds nor removes a component of the family, whatever it does to others.
def LeavesTypes : TypedOp family SimpleWorld.Op → Prop
  | .raw (.addComponentWithStorage _ componentType _ _) => ∀ c, componentType ≠ family.componentType c
  | .raw (.removeComponent _ componentType) => ∀ c, componentType ≠ family.componentType c
  | _ => True

end TypedOp

-- What the typed methods are for: one partial map from entities to values for each member.
abbrev TypedContents {ι : Type} (family : ComponentFamily ι) := ∀ c, EntityId → Option (family.Value c)

section Contents

variable {ι : Type} [DecidableEq ι] (family : ComponentFamily ι)

def stepContents (typed : TypedContents family) : TypedOp family SimpleWorld.Op → TypedContents family
  | .setTyped e c component => Function.update typed c (Function.update (typed c) e (some component))
  | .removeTyped e c => Function.update typed c (Function.update (typed c) e none)
  | .raw (.despawnEntity e) => fun c => Function.update (typed c) e none
  | .raw _ => typed

def typedAfter (ops : List (TypedOp family SimpleWorld.Op)) : TypedContents family :=
  Transition.run (stepContents family) (fun _ _ => none) ops

end Contents

namespace SimpleWorld

section Methods

variable {T : Type} (world : SimpleWorld) (trait : ComponentTrait T) (entityId : EntityId)

def getTyped : Decoded T := do
  let bytes ← OptionT.mk (some (world.getComponent entityId trait.componentType))
  trait.deserialize bytes

def setTyped (component : T) : SimpleWorld :=
  let symbol := trait.componentType
  let data := trait.serialize component
  let storage := trait.defaultStorage
  world.addComponentWithStorage entityId symbol data storage

def hasTyped : Bool := world.hasComponent entityId trait.componentType

def removeTyped : Bool × SimpleWorld := world.removeComponent entityId trait.componentType

end Methods

variable {ι : Type} {family : ComponentFamily ι}

def stepTyped (family : ComponentFamily ι) (world : SimpleWorld) : TypedOp family Op → SimpleWorld
  | .setTyped entityId c component => world.setTyped (family.trait c) entityId component
  | .removeTyped entityId c => (world.removeTyped (family.trait c) entityId).2
  | .raw op => world.step op

def worldAfterTyped (family : ComponentFamily ι) (ops : List (TypedOp family Op)) : SimpleWorld :=
  Transition.run (stepTyped family) new ops

-- The typed methods and the queries show the map, and no read traps or fails to decode.
structure ShowsTyped (family : ComponentFamily ι) (world : SimpleWorld)
    (typed : TypedContents family) : Prop where
  get : ∀ c e, (world.getTyped (family.trait c) e).run = some (typed c e)
  has : ∀ c e, world.hasTyped (family.trait c) e = (typed c e).isSome
  removed : ∀ c e, (world.removeTyped (family.trait c) e).1 = (typed c e).isSome
  listed : ∀ c e, e ∈ world.getEntitiesWithComponent (family.componentType c) ↔ (typed c e).isSome

section OneType

-- The two maps and the type lists tell the same of one type, all of whose additions are of one kind.
structure IndexedAt (kind : ComponentStorage) (t : Symbol) (world : SimpleWorld) : Prop where
  table : ∀ e, (world.components.get (e, t)).isSome ↔ kind = .Table ∧ t ∈ world.types e
  sparse : ∀ e, (world.sparseComponents.get (e, t)).isSome ↔ kind = .Sparse ∧ t ∈ world.types e

def Op.FollowsAt (kind : ComponentStorage) (t : Symbol) : Op → Prop
  | .addComponentWithStorage _ componentType _ storage => componentType = t → storage = kind
  | _ => True

variable {kind : ComponentStorage} {t : Symbol} {world : SimpleWorld}

theorem indexedAt_new : IndexedAt kind t new where
  table e := by simp [new, types]
  sparse e := by simp [new, types]

theorem IndexedAt.hasComponent_iff (h : IndexedAt kind t world) (e : EntityId) :
    world.hasComponent e t ↔ t ∈ world.types e := by
  simp only [hasComponent, Map.containsKey_eq_isSome, Bool.or_eq_true, h.table, h.sparse]
  cases kind <;> simp

theorem IndexedAt.not_doubled (h : IndexedAt kind t world) (e : EntityId) : ¬world.Doubled e t := by
  rintro ⟨htable, hsparse⟩
  have hkind := ((h.table e).mp htable).1
  rw [((h.sparse e).mp hsparse).1] at hkind
  cases hkind

theorem IndexedAt.oneCopy (h : IndexedAt kind t world) {op : Op} (hop : op.FollowsAt kind t) {e : EntityId}
    (htarget : op.Targets e t) : world.OneCopy op := by
  cases op with
  | spawnEntity => trivial
  | addComponentWithStorage e' u data storage =>
      obtain ⟨rfl, rfl⟩ := htarget
      cases storage with
      | Table => trivial
      | Sparse =>
          intro old hold
          have htable := ((h.table e).mp (by rw [hold]; rfl)).1
          rw [← hop rfl] at htable
          cases htable
  | removeComponent e' u =>
      obtain ⟨rfl, rfl⟩ := htarget
      rintro ⟨htable, hsparse⟩
      rw [Map.containsKey_eq_isSome] at htable hsparse
      exact h.not_doubled e ⟨htable, hsparse⟩
  | despawnEntity e' => trivial

-- A step reads as on the contents, as far as the type is concerned.
theorem IndexedAt.getComponent_step (h : IndexedAt kind t world) {op : Op} (hop : op.FollowsAt kind t)
    (e : EntityId) :
    (world.step op).getComponent e t = Contents.step (fun key => world.getComponent key.1 key.2) op (e, t) := by
  by_cases htarget : op.Targets e t
  · have hone := h.oneCopy hop htarget
    cases op with
    | spawnEntity => rfl
    | addComponentWithStorage e' t' data storage =>
        simp only [step, Contents.step, getComponent_add world e' t' data storage hone, Function.update_apply]
    | removeComponent e' t' =>
        simp only [step, Contents.step, getComponent_remove world e' t' hone, Function.update_apply]
    | despawnEntity e' =>
        obtain rfl : e = e' := htarget
        simp only [step, getComponent_despawn_self, Contents.step, if_true]
        split_ifs with hlisted
        · rfl
        · have habsent : ¬world.hasComponent e t := fun hhas => hlisted ((h.hasComponent_iff e).mp hhas)
          rw [hasComponent_eq_isSome] at habsent
          exact Option.not_isSome_iff_eq_none.mp habsent
  · rw [getComponent_step_of_not_targets world op e t htarget]
    cases op with
    | spawnEntity => rfl
    | addComponentWithStorage e' t' data storage =>
        rw [Contents.step, Function.update_of_ne fun heq => htarget (Prod.mk.inj heq)]
    | removeComponent e' t' => rw [Contents.step, Function.update_of_ne fun heq => htarget (Prod.mk.inj heq)]
    | despawnEntity e' =>
        have hother : e ≠ e' := htarget
        simp only [Contents.step, hother, if_false]

theorem mem_types_removeComponent (h : IndexedAt kind t world) (e other : EntityId) (u : Symbol) :
    t ∈ (world.removeComponent e u).2.types other ↔ t ∈ world.types other ∧ (other, t) ≠ (e, u) := by
  rw [types_removeComponent]
  by_cases hother : other = e
  · subst hother
    by_cases ht : t = u
    · subst ht
      have hhas := h.hasComponent_iff other
      by_cases hlisted : t ∈ world.types other
      · simp [hhas.mpr hlisted]
      · simp [mt hhas.mp hlisted, hlisted]
    · split_ifs <;> simp [ht]
  · simp [hother]

theorem indexedAt_step (h : IndexedAt kind t world) {op : Op} (hop : op.FollowsAt kind t) :
    IndexedAt kind t (world.step op) := by
  cases op with
  | spawnEntity => exact ⟨h.table, h.sparse⟩
  | addComponentWithStorage e u data storage =>
      by_cases hu : t = u
      · subst hu
        obtain rfl : storage = kind := hop rfl
        constructor
        · intro other
          rw [step, get_components_add, mem_types_add]
          have hold := h.table other
          by_cases hother : other = e
          · cases storage with
            | Table => simp [hother]
            | Sparse => simpa [hother] using hold
          · simpa [hother] using hold
        · intro other
          rw [step, get_sparseComponents_add, mem_types_add]
          have hold := h.sparse other
          by_cases hother : other = e
          · cases storage with
            | Table => simpa [hother] using hold
            | Sparse => simp [hother]
          · simpa [hother] using hold
      · constructor
        · intro other
          rw [step, get_components_add, mem_types_add]
          simpa [hu] using h.table other
        · intro other
          rw [step, get_sparseComponents_add, mem_types_add]
          simpa [hu] using h.sparse other
  | removeComponent e u =>
      constructor
      · intro other
        rw [step, removeComponent_components, Map.get_erase, mem_types_removeComponent h]
        split_ifs with hkey
        · simp [hkey]
        · simpa [hkey] using h.table other
      · intro other
        rw [step, removeComponent_sparseComponents, mem_types_removeComponent h, Map.containsKey_eq_isSome]
        by_cases hkey : (other, t) = (e, u)
        · obtain ⟨rfl, rfl⟩ := Prod.mk.inj hkey
          split_ifs with htable
          · have hkind := ((h.table other).mp htable).1
            simpa [hkind] using h.sparse other
          · simp
        · split_ifs
          · simpa [hkey] using h.sparse other
          · simpa [hkey, Map.get_erase] using h.sparse other
  | despawnEntity e =>
      constructor
      · intro other
        rw [step, get_components_despawn, types_despawn]
        by_cases hother : other = e
        · by_cases ht : t ∈ world.types e
          · simp [hother, ht]
          · simpa [hother, ht] using h.table e
        · simpa [hother] using h.table other
      · intro other
        rw [step, get_sparseComponents_despawn, types_despawn]
        by_cases hother : other = e
        · by_cases ht : t ∈ world.types e
          · simp [hother, ht]
          · simpa [hother, ht] using h.sparse e
        · simpa [hother] using h.sparse other

end OneType

section Family

theorem stepTyped_eq (world : SimpleWorld) (op : TypedOp family Op) :
    stepTyped family world op = world.step op.flat := by
  cases op <;> rfl

-- Contents whose components of the family are the values of a typed map, written out.
def Holds (contents : Contents) (typed : TypedContents family) : Prop :=
  ∀ c e, contents (e, family.componentType c) = (typed c e).map (family.serialize c)

theorem holds_step [DecidableEq ι] {contents : Contents} {typed : TypedContents family} (h : Holds contents typed)
    {op : TypedOp family Op} (hop : op.LeavesTypes) :
    Holds (contents.step op.flat) (stepContents family typed op) := by
  intro c e
  cases op with
  | setTyped e' c' component =>
      simp only [TypedOp.flat, Contents.step, stepContents, Function.update_apply, Prod.mk.injEq]
      by_cases hc : c = c'
      · subst hc
        by_cases he : e = e'
        · simp [he]
        · simpa [he] using h c e
      · have htype : family.componentType c ≠ family.componentType c' := fun heq => hc (family.apart heq)
        simpa [hc, htype] using h c e
  | removeTyped e' c' =>
      simp only [TypedOp.flat, Contents.step, stepContents, Function.update_apply, Prod.mk.injEq]
      by_cases hc : c = c'
      · subst hc
        by_cases he : e = e'
        · simp [he]
        · simpa [he] using h c e
      · have htype : family.componentType c ≠ family.componentType c' := fun heq => hc (family.apart heq)
        simpa [hc, htype] using h c e
  | raw op =>
      cases op with
      | spawnEntity => exact h c e
      | addComponentWithStorage e' t data storage =>
          have htype : family.componentType c ≠ t := (hop c).symm
          simpa [TypedOp.flat, Contents.step, stepContents, Function.update_apply, htype] using h c e
      | removeComponent e' t =>
          have htype : family.componentType c ≠ t := (hop c).symm
          simpa [TypedOp.flat, Contents.step, stepContents, Function.update_apply, htype] using h c e
      | despawnEntity e' =>
          simp only [TypedOp.flat, Contents.step, stepContents, Function.update_apply]
          by_cases he : e = e'
          · simp [he]
          · simpa [he] using h c e

theorem followsAt_flat {op : TypedOp family Op} (hop : op.LeavesTypes) (c : ι) :
    op.flat.FollowsAt (family.trait c).defaultStorage (family.componentType c) := by
  cases op with
  | setTyped e c' component =>
      intro heq
      rw [family.apart heq]
  | removeTyped e c' => trivial
  | raw op =>
      cases op with
      | addComponentWithStorage e t data storage => exact fun heq => absurd heq (hop c)
      | _ => trivial

-- The members are written under their own kind, and the world holds the typed map.
structure Tracks (world : SimpleWorld) (typed : TypedContents family) : Prop where
  indexed : ∀ c, IndexedAt (family.trait c).defaultStorage (family.componentType c) world
  holds : Holds (fun key => world.getComponent key.1 key.2) typed

theorem tracks_step [DecidableEq ι] {world : SimpleWorld} {typed : TypedContents family} (h : world.Tracks typed)
    {op : TypedOp family Op} (hop : op.LeavesTypes) :
    (stepTyped family world op).Tracks (stepContents family typed op) := by
  rw [stepTyped_eq]
  constructor
  · intro c
    exact indexedAt_step (h.indexed c) (followsAt_flat hop c)
  · intro c e
    rw [← holds_step h.holds hop c e]
    exact (h.indexed c).getComponent_step (followsAt_flat hop c) e

theorem Tracks.showsTyped {world : SimpleWorld} {typed : TypedContents family} (h : world.Tracks typed) :
    ShowsTyped family world typed := by
  have hget : ∀ c e, world.getComponent e (family.componentType c) = (typed c e).map (family.serialize c) :=
    fun c e => h.holds c e
  have hhas : ∀ c e, world.hasComponent e (family.componentType c) = (typed c e).isSome := by
    intro c e
    rw [hasComponent_eq_isSome, hget, Option.isSome_map]
  constructor
  · intro c e
    rw [getTyped, ← ComponentFamily.componentType, hget]
    exact family.deserialize_serialized c (typed c e)
  · exact hhas
  · intro c e
    rw [removeTyped, removeComponent_fst]
    exact hhas c e
  · intro c e
    rw [mem_getEntitiesWithComponent_iff_listed, ← (h.indexed c).hasComponent_iff, hhas]

theorem tracks_worldAfterTyped [DecidableEq ι] (ops : List (TypedOp family Op))
    (hops : ∀ op ∈ ops, op.LeavesTypes) :
    (worldAfterTyped family ops).Tracks (typedAfter family ops) := by
  induction ops using List.reverseRecOn with
  | nil => exact ⟨fun _ => indexedAt_new, fun c e => by simp [worldAfterTyped, typedAfter, getComponent, new]⟩
  | append_singleton past op ih =>
      obtain ⟨hpast, hop⟩ := List.forall_mem_append.mp hops
      rw [worldAfterTyped, typedAfter, Transition.run_concat, Transition.run_concat]
      exact tracks_step (ih hpast) (hop op (List.mem_singleton_self op))

-- Whatever is done to other types in between, the typed methods read and remove what was last set.
theorem showsTyped_worldAfterTyped [DecidableEq ι] (family : ComponentFamily ι) (ops : List (TypedOp family Op))
    (hops : ∀ op ∈ ops, op.LeavesTypes) :
    ShowsTyped family (worldAfterTyped family ops) (typedAfter family ops) :=
  (tracks_worldAfterTyped ops hops).showsTyped

end Family

section Core

inductive CoreComponent where
  | Position
  | Velocity
  | Health
  | Token
  deriving DecidableEq

def CoreComponent.fields : CoreComponent → List FieldType
  | .Position => [.i32, .i32]
  | .Velocity => [.i32, .i32]
  | .Health => [.u128, .u128]
  | .Token => [.u32, .bytes32]

def CoreComponent.symbol : CoreComponent → Symbol
  | .Position => symbolShort "position"
  | .Velocity => symbolShort "velocity"
  | .Health => symbolShort "health"
  | .Token => symbolShort "token"

-- The components that the crate declares itself.
def coreComponents : ComponentFamily CoreComponent where
  Value c := Record c.fields
  trait c := implComponent c.symbol .Table c.fields
  roundTrip c value := implComponent_roundTrip c.symbol .Table (by cases c <;> decide) value
  apart first second h := by
    have htext := congrArg Symbol.text h
    cases first <;> cases second <;> first
      | rfl
      | exact absurd htext (by decide)

-- A position is moved, and its entity leaves a velocity behind.
def moved : List (TypedOp coreComponents Op) :=
  [.raw .spawnEntity, .setTyped 1 .Position ((3 : Int32), (-4 : Int32), ()),
    .raw (.addComponentWithStorage 1 (symbolShort "flag") [7] .Sparse),
    .setTyped 1 .Velocity ((1 : Int32), (0 : Int32), ()), .setTyped 1 .Position ((4 : Int32), (-4 : Int32), ()),
    .removeTyped 1 .Velocity]

theorem moved_shows_typed :
    ShowsTyped coreComponents (worldAfterTyped coreComponents moved) (typedAfter coreComponents moved) := by
  apply showsTyped_worldAfterTyped
  intro op hop
  simp only [moved, List.mem_cons, List.not_mem_nil, or_false] at hop
  rcases hop with rfl | rfl | rfl | rfl | rfl | rfl
  case inr.inr.inl =>
      intro c heq
      have htext := congrArg Symbol.text heq
      cases c <;> exact absurd htext (by decide)
  all_goals trivial

end Core

end SimpleWorld

end Cougr
