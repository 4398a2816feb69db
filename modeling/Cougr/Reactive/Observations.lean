import Cougr.Reactive.Removals

namespace Cougr

open Reactive

section Fire

variable {Observer : Type} (self : ObserverRegistry Observer) (event : ComponentEvent) (world : SimpleWorld)

-- An observer of this kind of event is registered for the type.
def ObserverRegistry.Listens (self : ObserverRegistry Observer) (componentType : Symbol)
    (kind : ComponentEventKind) : Prop :=
  ∃ registration ∈ self.observers, registration.1 = componentType ∧ registration.2.1 = kind

instance (componentType : Symbol) (kind : ComponentEventKind) : Decidable (self.Listens componentType kind) :=
  inferInstanceAs (Decidable (∃ registration ∈ self.observers, registration.1 = componentType ∧
    registration.2.1 = kind))

variable {self event world}

theorem ObserverRegistry.of_mem_fire {call : ObserverCall Observer} (hcall : call ∈ self.fire event world) :
    call.event = event ∧ call.world = world := by
  obtain ⟨⟨ctype, kind, observer⟩, _, hmatch⟩ := List.mem_filterMap.mp hcall
  dsimp only at hmatch
  split_ifs at hmatch
  cases hmatch
  exact ⟨rfl, rfl⟩

theorem ObserverRegistry.exists_mem_fire_iff :
    (∃ call, call ∈ self.fire event world) ↔ self.Listens event.componentType event.kind := by
  constructor
  · rintro ⟨call, hcall⟩
    obtain ⟨⟨ctype, kind, observer⟩, hregistration, hmatch⟩ := List.mem_filterMap.mp hcall
    dsimp only at hmatch
    split_ifs at hmatch with htype
    exact ⟨_, hregistration, htype⟩
  · rintro ⟨registration, hregistration, htype⟩
    exact ⟨⟨registration.2.2, event, world⟩,
      List.mem_filterMap.mpr ⟨registration, hregistration, if_pos htype⟩⟩

end Fire

namespace ObservedWorld

variable {Observer : Type} (observed : ObservedWorld Observer)

-- Observers are shown the world after the mutation: the component of the event has come or gone in
-- it, and nothing of the operation is left to do.
structure SeesResult (op : Op) : Prop where
  added : ∀ call ∈ observed.calls op, call.event.kind = .Added →
    call.world.hasComponent call.event.entityId call.event.componentType
  removed : ∀ call ∈ observed.calls op, call.event.kind = .Removed →
    ¬call.world.hasComponent call.event.entityId call.event.componentType
  complete : ∀ call ∈ observed.calls op, call.world = (observed.step op).world

-- Nobody listens when the entity goes.
def DespawnsUnheard : Op → Prop
  | .spawnEntity => True
  | .addComponent _ _ _ => True
  | .removeComponent _ _ => True
  | .despawnEntity entityId => ∀ t ∈ observed.world.types entityId, ¬observed.observers.Listens t .Removed

instance : DecidablePred observed.DespawnsUnheard
  | .spawnEntity => inferInstanceAs (Decidable True)
  | .addComponent _ _ _ => inferInstanceAs (Decidable True)
  | .removeComponent _ _ => inferInstanceAs (Decidable True)
  | .despawnEntity _ => inferInstanceAs (Decidable (∀ _ ∈ _, ¬_))

variable {observed}

-- Calls that all carry one event and the final world see the result if the event tells the truth.
theorem seesResult_of_fired {op : Op} {event : ComponentEvent}
    (hcalls : ∀ call ∈ observed.calls op, call.event = event ∧ call.world = (observed.step op).world)
    (htruth : (observed.step op).world.hasComponent event.entityId event.componentType ↔ event.kind = .Added) :
    observed.SeesResult op where
  added call hcall hkind := by
    obtain ⟨hevent, hworld⟩ := hcalls call hcall
    rw [hworld, hevent, htruth, ← hevent]
    exact hkind
  removed call hcall hkind := by
    obtain ⟨hevent, hworld⟩ := hcalls call hcall
    rw [hworld, hevent, htruth, ← hevent, hkind]
    exact ComponentEventKind.noConfusion
  complete call hcall := (hcalls call hcall).2

theorem seesResult_addComponent (e : EntityId) (t : Symbol) (data : Bytes) :
    observed.SeesResult (.addComponent e t data) := by
  apply @seesResult_of_fired _ observed _ ⟨e, t, .Added⟩
  · exact fun call hcall => ObserverRegistry.of_mem_fire hcall
  · have hhas := (observed.world.hasComponent_add e e t t data .Table).mpr (Or.inr ⟨rfl, rfl⟩)
    exact iff_of_true hhas rfl

theorem seesResult_removeComponent {e : EntityId} {t : Symbol} (hsingle : ¬observed.world.Doubled e t) :
    observed.SeesResult (.removeComponent e t) := by
  apply @seesResult_of_fired _ observed _ ⟨e, t, .Removed⟩
  · intro call hcall
    simp only [calls, handle, removeComponent] at hcall
    split_ifs at hcall
    · exact ObserverRegistry.of_mem_fire hcall
    · cases hcall
  · have hgone : (observed.step (.removeComponent e t)).world.hasComponent e t ↔ observed.world.Doubled e t := by
      have hremove := observed.world.hasComponent_remove e e t t
      rwa [if_pos rfl] at hremove
    exact iff_of_false (hgone.not.mpr hsingle) ComponentEventKind.noConfusion

-- A despawn calls while the components are still there, so its observers see none of it done.
theorem seesResult_despawnEntity_iff (e : EntityId)
    (hpresent : ∀ t ∈ observed.world.types e, observed.world.hasComponent e t) :
    observed.SeesResult (.despawnEntity e) ↔ observed.DespawnsUnheard (.despawnEntity e) := by
  constructor
  · intro hsees t ht hlistens
    obtain ⟨call, hcall⟩ :=
      (@ObserverRegistry.exists_mem_fire_iff _ _ ⟨e, t, .Removed⟩ observed.world).mpr hlistens
    have hmem : call ∈ observed.calls (.despawnEntity e) := by
      rw [calls_despawnEntity]
      exact List.mem_flatMap.mpr ⟨t, ht, hcall⟩
    obtain ⟨hevent, hworld⟩ := ObserverRegistry.of_mem_fire hcall
    have habsent := hsees.removed call hmem (by rw [hevent])
    rw [hworld, hevent] at habsent
    exact habsent (hpresent t ht)
  · intro hunheard
    have hnone : ∀ call, call ∉ observed.calls (.despawnEntity e) := by
      intro call hcall
      rw [calls_despawnEntity] at hcall
      obtain ⟨t, ht, hfire⟩ := List.mem_flatMap.mp hcall
      exact hunheard t ht (ObserverRegistry.exists_mem_fire_iff.mp ⟨call, hfire⟩)
    exact ⟨fun call hcall => absurd hcall (hnone call), fun call hcall => absurd hcall (hnone call),
      fun call hcall => absurd hcall (hnone call)⟩

-- Whatever is registered, and after every run that keeps to one storage kind for a type.
theorem seesResult_iff (kind : Symbol → ComponentStorage) (past : List SimpleWorld.Op)
    (hpast : ∀ op ∈ past, op.Follows kind) (observers : ObserverRegistry Observer) (op : Op) :
    let observed : ObservedWorld Observer := ⟨SimpleWorld.worldAfter past, observers⟩
    observed.SeesResult op ↔ observed.DespawnsUnheard op := by
  intro observed
  have hindexed : SimpleWorld.Indexed kind observed.world := SimpleWorld.invariant_worldAfter past hpast
  cases op with
  | spawnEntity =>
      refine iff_of_true ⟨?_, ?_, ?_⟩ trivial
      all_goals
        intro call hcall
        cases hcall
  | addComponent e t data => exact iff_of_true (seesResult_addComponent e t data) trivial
  | removeComponent e t => exact iff_of_true (seesResult_removeComponent (hindexed.not_doubled e t)) trivial
  | despawnEntity e =>
      exact seesResult_despawnEntity_iff e fun t ht => (hindexed.hasComponent_iff e t).mpr ht

-- Where only additions are watched the ship goes unheard.
theorem despawned_ship_unheard :
    (ObservedWorld.mk (SimpleWorld.worldAfter SimpleWorld.markedShip)
      (ObserverRegistry.new.onAdd SimpleWorld.hull ())).SeesResult (.despawnEntity 1) :=
  (seesResult_iff SimpleWorld.markerKind SimpleWorld.markedShip (by decide)
    (ObserverRegistry.new.onAdd SimpleWorld.hull ()) (.despawnEntity 1)).mpr (by decide)

-- The observers of a despawned ship still find its hull.
theorem despawned_ship_seen_whole :
    ¬(ObservedWorld.mk (SimpleWorld.worldAfter SimpleWorld.markedShip) shipObservers).SeesResult
      (.despawnEntity 1) := by
  intro hsees
  have hcall : ⟨(), ⟨1, SimpleWorld.hull, .Removed⟩, SimpleWorld.worldAfter SimpleWorld.markedShip⟩ ∈
      (ObservedWorld.mk (SimpleWorld.worldAfter SimpleWorld.markedShip) shipObservers).calls
      (.despawnEntity 1) := by
    rw [calls_despawnEntity]
    exact List.mem_cons_self
  exact hsees.removed _ hcall rfl (by decide)

end ObservedWorld

end Cougr
