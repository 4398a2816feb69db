import Cougr.Reactive.NetChanges

namespace Cougr

open Transition

namespace Reactive

-- The operations that all three wrappers have.
inductive Op where
  | spawnEntity
  | addComponent (entityId : EntityId) (componentType : Symbol) (data : Bytes)
  | removeComponent (entityId : EntityId) (componentType : Symbol)
  | despawnEntity (entityId : EntityId)

-- What they do to the world they wrap.
def Op.simple : Op → SimpleWorld.Op
  | .spawnEntity => .spawnEntity
  | .addComponent entityId componentType data =>
    .addComponentWithStorage entityId componentType data .Table
  | .removeComponent entityId componentType => .removeComponent entityId componentType
  | .despawnEntity entityId => .despawnEntity entityId

def worldStep (world : SimpleWorld) (op : Op) : SimpleWorld := world.step op.simple

-- The pairs for which a removal fires the hooks: whatever it finds.
def firedBy (world : SimpleWorld) : Op → List (EntityId × Symbol)
  | .spawnEntity => []
  | .addComponent _ _ _ => []
  | .removeComponent e t => [(e, t)]
  | .despawnEntity e => (world.types e).map fun t => (e, t)

def Op.Within (types : List Symbol) (op : Op) : Prop := op.simple.Within types

instance (types : List Symbol) : DecidablePred (Op.Within types) := fun op =>
  inferInstanceAs (Decidable (op.simple.Within types))

-- One answer for every registration that matches.
theorem filterMap_const_eq_replicate {α β : Type} (items : List α) (holds : α → Bool) (value : β) :
    (items.filterMap fun item => if holds item then some value else none) =
      List.replicate (items.countP holds) value := by
  induction items with
  | nil => rfl
  | cons first rest ih =>
      by_cases hfirst : holds first
      · simp [hfirst, ih, List.replicate_succ]
      · simp [hfirst, ih]

end Reactive

open Reactive

section Hooks

variable {OnAddHook OnRemoveHook : Type}

def HookCall.removal : HookCall OnAddHook OnRemoveHook → Option (EntityId × Symbol)
  | .onAdd _ _ _ _ => none
  | .onRemove _ entityId componentType => some (entityId, componentType)

theorem HookRegistry.removals_fireOnAdd (self : HookRegistry OnAddHook OnRemoveHook) (e : EntityId) (t : Symbol)
    (data : Bytes) : (self.fireOnAdd e t data).filterMap HookCall.removal = [] := by
  rw [fireOnAdd, List.filterMap_map]
  exact List.filterMap_eq_nil_iff.mpr fun _ _ => rfl

theorem HookRegistry.removals_fireOnRemove (self : HookRegistry OnAddHook OnRemoveHook) (e : EntityId)
    (t : Symbol) : (self.fireOnRemove e t).filterMap HookCall.removal =
      List.replicate (self.removeHooks.countP fun registration => registration.1 = t) (e, t) := by
  rw [← filterMap_const_eq_replicate, fireOnRemove, registeredFor, List.filterMap_map, List.filterMap_filterMap]
  congr
  funext registration
  by_cases ht : registration.1 = t
  · simp [ht, HookCall.removal]
  · simp [ht]

namespace HookedWorld

variable (self : HookedWorld OnAddHook OnRemoveHook)

def handle : Op → List (HookCall OnAddHook OnRemoveHook) × HookedWorld OnAddHook OnRemoveHook
  | .spawnEntity => ([], self.spawnEntity.2)
  | .addComponent entityId componentType data => self.addComponent entityId componentType data
  | .removeComponent entityId componentType =>
    let (calls, _, hooked) := self.removeComponent entityId componentType
    (calls, hooked)
  | .despawnEntity entityId => self.despawnEntity entityId

def calls (op : Op) : List (HookCall OnAddHook OnRemoveHook) := (self.handle op).1

def step (op : Op) : HookedWorld OnAddHook OnRemoveHook := (self.handle op).2

theorem step_eq (op : Op) : self.step op = { self with world := worldStep self.world op } := by
  cases op <;> rfl

-- One hook for each of the types: the hooks hear every removal once.
theorem removals_calls {types : List Symbol}
    (hhooks : ∀ t ∈ types, (self.hooks.removeHooks.countP fun registration => registration.1 = t) = 1)
    (hlists : self.world.ListsPresent types) {op : Op} (hop : op.Within types) :
    (self.calls op).filterMap HookCall.removal = firedBy self.world op := by
  have hfires : ∀ e, ∀ t ∈ types, (self.hooks.fireOnRemove e t).filterMap HookCall.removal = [(e, t)] := by
    intro e t ht
    rw [HookRegistry.removals_fireOnRemove, hhooks t ht]
    rfl
  cases op with
  | spawnEntity => rfl
  | addComponent e t data => exact HookRegistry.removals_fireOnAdd ..
  | removeComponent e t => exact hfires e t hop
  | despawnEntity e =>
      have hcalls : self.calls (.despawnEntity e) = (self.world.types e).flatMap (self.hooks.fireOnRemove e) := by
        simp only [calls, handle, despawnEntity, SimpleWorld.types]
        cases self.world.entityComponents.get e <;> rfl
      rw [hcalls, List.filterMap_flatMap, firedBy, List.map_eq_flatMap]
      exact List.flatMap_congr fun t ht => hfires e t (hlists.within e t ht)

theorem run_eq (ops : List Op) : run step self ops = { self with world := run worldStep self.world ops } :=
  (run_view (fun world => HookedWorld.mk world self.hooks) (fun world op => (step_eq ⟨world, self.hooks⟩ op).symm)
    self.world ops).symm

end HookedWorld

end Hooks

section Observers

variable {Observer : Type}

def ObserverCall.removal (call : ObserverCall Observer) : Option (EntityId × Symbol) :=
  match call.event.kind with
  | .Added => none
  | .Removed => some (call.event.entityId, call.event.componentType)

theorem ObserverRegistry.removals_fire_added (self : ObserverRegistry Observer) (e : EntityId) (t : Symbol)
    (world : SimpleWorld) : (self.fire ⟨e, t, .Added⟩ world).filterMap ObserverCall.removal = [] := by
  rw [fire, List.filterMap_filterMap]
  apply List.filterMap_eq_nil_iff.mpr
  intro registration _
  by_cases hmatch : registration.1 = t ∧ registration.2.1 = .Added
  · simp [hmatch, ObserverCall.removal]
  · simp [hmatch]

theorem ObserverRegistry.removals_fire_removed (self : ObserverRegistry Observer) (e : EntityId) (t : Symbol)
    (world : SimpleWorld) : (self.fire ⟨e, t, .Removed⟩ world).filterMap ObserverCall.removal =
      List.replicate (self.observers.countP fun registration => registration.1 = t ∧ registration.2.1 = .Removed)
        (e, t) := by
  rw [← filterMap_const_eq_replicate, fire, List.filterMap_filterMap]
  congr
  funext registration
  by_cases hmatch : registration.1 = t ∧ registration.2.1 = .Removed
  · simp [hmatch, ObserverCall.removal]
  · simp [hmatch]

namespace ObservedWorld

variable (self : ObservedWorld Observer)

def handle : Op → List (ObserverCall Observer) × ObservedWorld Observer
  | .spawnEntity => ([], self.spawnEntity.2)
  | .addComponent entityId componentType data => self.addComponent entityId componentType data
  | .removeComponent entityId componentType =>
    let (calls, _, observed) := self.removeComponent entityId componentType
    (calls, observed)
  | .despawnEntity entityId => self.despawnEntity entityId

def calls (op : Op) : List (ObserverCall Observer) := (self.handle op).1

def step (op : Op) : ObservedWorld Observer := (self.handle op).2

theorem step_eq (op : Op) : self.step op = { self with world := worldStep self.world op } := by
  cases op <;> rfl

theorem calls_despawnEntity (e : EntityId) : self.calls (.despawnEntity e) =
    (self.world.types e).flatMap fun t => self.observers.fire ⟨e, t, .Removed⟩ self.world := by
  simp only [calls, handle, despawnEntity, SimpleWorld.types]
  cases self.world.entityComponents.get e <;> rfl

-- The observers hear what the tracker records.
theorem removals_calls {types : List Symbol}
    (hobservers : ∀ t ∈ types, (self.observers.observers.countP fun registration =>
      registration.1 = t ∧ registration.2.1 = .Removed) = 1)
    (hlists : self.world.ListsPresent types) {op : Op} (hop : op.Within types) :
    (self.calls op).filterMap ObserverCall.removal = TrackedWorld.removedBy self.world op.simple := by
  have hfires : ∀ e, ∀ t ∈ types, ∀ world, (self.observers.fire ⟨e, t, .Removed⟩ world).filterMap
      ObserverCall.removal = [(e, t)] := by
    intro e t ht world
    rw [ObserverRegistry.removals_fire_removed, hobservers t ht]
    rfl
  cases op with
  | spawnEntity => rfl
  | addComponent e t data => exact ObserverRegistry.removals_fire_added ..
  | removeComponent e t =>
      have hresult := self.world.removeComponent_fst e t
      by_cases hhas : self.world.hasComponent e t
      · simp only [calls, handle, removeComponent, hresult, hhas, if_true, Op.simple, TrackedWorld.removedBy]
        exact hfires e t hop _
      · simp [calls, handle, removeComponent, hresult, hhas, Op.simple, TrackedWorld.removedBy]
  | despawnEntity e =>
      rw [calls_despawnEntity, List.filterMap_flatMap, Op.simple, TrackedWorld.removedBy, List.map_eq_flatMap]
      exact List.flatMap_congr fun t ht => hfires e t (hlists.within e t ht) _

theorem run_eq (ops : List Op) : run step self ops = { self with world := run worldStep self.world ops } :=
  (run_view (fun world => ObservedWorld.mk world self.observers)
    (fun world op => (step_eq ⟨world, self.observers⟩ op).symm) self.world ops).symm

end ObservedWorld

end Observers

namespace TrackedWorld

def handle (self : TrackedWorld) : Op → TrackedWorld
  | .spawnEntity => self.spawnEntity.2
  | .addComponent entityId componentType data => self.addComponent entityId componentType data
  | .removeComponent entityId componentType => (self.removeComponent entityId componentType).2
  | .despawnEntity entityId => self.despawnEntity entityId

theorem handle_eq (self : TrackedWorld) (op : Op) : self.handle op = self.step op.simple := by
  cases op with
  | addComponent e t data => exact self.addComponent_eq e t data
  | spawnEntity => rfl
  | removeComponent e t => rfl
  | despawnEntity e => rfl

theorem world_run_handle (self : TrackedWorld) (ops : List Op) :
    (run handle self ops).world = run worldStep self.world ops := by
  apply run_view TrackedWorld.world
  intro tracked op
  rw [handle_eq, step_eq]
  rfl

end TrackedWorld

namespace Reactive

section Exact

-- The pairs are the components that were there before the operation and are gone after it.
structure Exact (world : SimpleWorld) (op : Op) (removals : List (EntityId × Symbol)) : Prop where
  nodup : removals.Nodup
  mem_iff : ∀ e t, (e, t) ∈ removals ↔ world.hasComponent e t ∧ ¬(worldStep world op).hasComponent e t

-- A removal takes a component away: it is there, and not under both storage kinds.
def FindsComponent (world : SimpleWorld) : Op → Prop
  | .spawnEntity => True
  | .addComponent _ _ _ => True
  | .removeComponent entityId componentType =>
    world.hasComponent entityId componentType ∧ ¬world.Doubled entityId componentType
  | .despawnEntity _ => True

instance (world : SimpleWorld) : DecidablePred (FindsComponent world)
  | .spawnEntity => inferInstanceAs (Decidable True)
  | .addComponent _ _ _ => inferInstanceAs (Decidable True)
  | .removeComponent _ _ => inferInstanceAs (Decidable (_ = true ∧ ¬(_ = true ∧ _ = true)))
  | .despawnEntity _ => inferInstanceAs (Decidable True)

variable {types : List Symbol} {world : SimpleWorld}

theorem exact_firedBy_iff (h : world.ListsPresent types) (op : Op) :
    Exact world op (firedBy world op) ↔ FindsComponent world op := by
  cases op with
  | spawnEntity =>
      refine iff_of_true ⟨List.nodup_nil, fun e t => ?_⟩ trivial
      exact iff_of_false List.not_mem_nil fun hgone => hgone.2 hgone.1
  | addComponent e t data =>
      refine iff_of_true ⟨List.nodup_nil, fun other u => ?_⟩ trivial
      refine iff_of_false List.not_mem_nil fun hgone => hgone.2 ?_
      exact (world.hasComponent_add e other t u data .Table).mpr (Or.inl hgone.1)
  | removeComponent e t =>
      have hafter : ∀ other u, (worldStep world (.removeComponent e t)).hasComponent other u ↔
          if (other, u) = (e, t) then world.Doubled e t else world.hasComponent other u :=
        fun other u => world.hasComponent_remove e other t u
      constructor
      · intro hexact
        have hgone := (hexact.mem_iff e t).mp (List.mem_singleton_self _)
        rw [hafter, if_pos rfl] at hgone
        exact hgone
      · rintro ⟨hhas, hsingle⟩
        refine ⟨List.nodup_singleton _, fun other u => ?_⟩
        rw [firedBy, List.mem_singleton, hafter]
        split_ifs with hkey
        · obtain ⟨rfl, rfl⟩ := Prod.mk.inj hkey
          exact iff_of_true rfl ⟨hhas, hsingle⟩
        · exact iff_of_false hkey fun hgone => hgone.2 hgone.1
  | despawnEntity e =>
      refine iff_of_true ⟨?_, fun other u => ?_⟩ trivial
      · exact (h.nodup e).map fun _ _ heq => (Prod.mk.inj heq).2
      · have hafter : (worldStep world (.despawnEntity e)).hasComponent other u ↔ _ :=
          world.hasComponent_despawn e other u
        rw [hafter, firedBy, List.mem_map]
        constructor
        · rintro ⟨t, ht, hkey⟩
          obtain ⟨rfl, rfl⟩ := Prod.mk.inj hkey
          exact ⟨h.present e t ht, fun hkept => hkept.2 ⟨rfl, ht⟩⟩
        · rintro ⟨hhas, hgone⟩
          by_contra hnone
          refine hgone ⟨hhas, ?_⟩
          rintro ⟨rfl, hlisted⟩
          exact hnone ⟨u, hlisted, rfl⟩

theorem firedBy_eq_of_finds {op : Op} (h : FindsComponent world op) :
    firedBy world op = TrackedWorld.removedBy world op.simple := by
  cases op with
  | spawnEntity => rfl
  | addComponent e t data => rfl
  | removeComponent e t => rw [firedBy, Op.simple, TrackedWorld.removedBy, if_pos h.1]
  | despawnEntity e => rfl

end Exact

section Logs

variable {OnAddHook OnRemoveHook Observer : Type} (hooks : HookRegistry OnAddHook OnRemoveHook)
  (observers : ObserverRegistry Observer) (world : SimpleWorld)

-- The removals that a run reports: to the hooks, to the observers and in the tracker's list.

def hookedRemovals (ops : List Op) : List (EntityId × Symbol) :=
  (emitted HookedWorld.step HookedWorld.calls ⟨world, hooks⟩ ops).filterMap HookCall.removal

def observedRemovals (ops : List Op) : List (EntityId × Symbol) :=
  (emitted ObservedWorld.step ObservedWorld.calls ⟨world, observers⟩ ops).filterMap ObserverCall.removal

def trackedRemovals (ops : List Op) : List (EntityId × Symbol) :=
  (run TrackedWorld.handle (TrackedWorld.new world) ops).tracker.removed

-- For each of the types one hook and one observer are told of its removals.
structure Registered (types : List Symbol) : Prop where
  hooks : ∀ t ∈ types, (hooks.removeHooks.countP fun registration => registration.1 = t) = 1
  observers : ∀ t ∈ types, (observers.observers.countP fun registration =>
    registration.1 = t ∧ registration.2.1 = .Removed) = 1

-- With every operation a log grows by the components that the operation takes away.
def ListsRemovals (log : List Op → List (EntityId × Symbol)) (ops : List Op) : Prop :=
  ∀ past op rest, ops = past ++ op :: rest →
    ∃ removals, log (past ++ [op]) = log past ++ removals ∧ Exact (run worldStep world past) op removals

structure SameRemovals (ops : List Op) : Prop where
  hooked : hookedRemovals hooks world ops = trackedRemovals world ops
  observed : observedRemovals observers world ops = trackedRemovals world ops
  hookedExact : ListsRemovals world (hookedRemovals hooks world) ops
  observedExact : ListsRemovals world (observedRemovals observers world) ops
  trackedExact : ListsRemovals world (trackedRemovals world) ops

variable {hooks observers world} {types : List Symbol} {past : List Op} {op : Op}

theorem listsPresent_run (hworld : world.ListsPresent types) (ops : List Op)
    (hops : ∀ op ∈ ops, op.Within types) : (run worldStep world ops).ListsPresent types :=
  run_invariant_of_forall (SimpleWorld.ListsPresent types)
    (fun _ op h hop => SimpleWorld.listsPresent_step h op.simple hop) hworld ops hops

theorem hookedRemovals_concat (hregistered : Registered hooks observers types)
    (hlists : (run worldStep world past).ListsPresent types) (hop : op.Within types) :
    hookedRemovals hooks world (past ++ [op]) =
      hookedRemovals hooks world past ++ firedBy (run worldStep world past) op := by
  have hcalls := HookedWorld.removals_calls ⟨run worldStep world past, hooks⟩ hregistered.hooks hlists hop
  rw [hookedRemovals, emitted_concat, List.filterMap_append, HookedWorld.run_eq, hcalls]
  rfl

theorem observedRemovals_concat (hregistered : Registered hooks observers types)
    (hlists : (run worldStep world past).ListsPresent types) (hop : op.Within types) :
    observedRemovals observers world (past ++ [op]) =
      observedRemovals observers world past ++ TrackedWorld.removedBy (run worldStep world past) op.simple := by
  have hcalls := ObservedWorld.removals_calls ⟨run worldStep world past, observers⟩ hregistered.observers hlists
    hop
  rw [observedRemovals, emitted_concat, List.filterMap_append, ObservedWorld.run_eq, hcalls]
  rfl

theorem trackedRemovals_concat (world : SimpleWorld) (past : List Op) (op : Op) :
    trackedRemovals world (past ++ [op]) =
      trackedRemovals world past ++ TrackedWorld.removedBy (run worldStep world past) op.simple := by
  rw [trackedRemovals, run_concat, TrackedWorld.handle_eq, TrackedWorld.step_eq, TrackedWorld.world_run_handle]
  rfl

-- The observers and the tracker ask what the removal has found; the hooks were fired before.
theorem logs_eq (hregistered : Registered hooks observers types) (hworld : world.ListsPresent types)
    (ops : List Op) (hops : ∀ op ∈ ops, op.Within types) (hfinds : StepsMeet worldStep FindsComponent world ops) :
    hookedRemovals hooks world ops = trackedRemovals world ops ∧
      observedRemovals observers world ops = trackedRemovals world ops := by
  induction ops using List.reverseRecOn with
  | nil => exact ⟨rfl, rfl⟩
  | append_singleton past op ih =>
      obtain ⟨hpast, hop⟩ := List.forall_mem_append.mp hops
      have hlists := listsPresent_run hworld past hpast
      obtain ⟨hbefore, hhere⟩ := (stepsMeet_concat ..).mp hfinds
      obtain ⟨hhooked, hobserved⟩ := ih hpast hbefore
      have hwithin := hop op (List.mem_singleton_self op)
      rw [hookedRemovals_concat hregistered hlists hwithin, observedRemovals_concat hregistered hlists hwithin,
        trackedRemovals_concat, firedBy_eq_of_finds hhere, hhooked, hobserved]
      exact ⟨rfl, rfl⟩

-- A log that grows by what the operation fires lists the removals as long as these are found.
theorem listsRemovals_of_finds {log : List Op → List (EntityId × Symbol)} {ops : List Op}
    (hworld : world.ListsPresent types) (hops : ∀ op ∈ ops, op.Within types)
    (hfinds : StepsMeet worldStep FindsComponent world ops)
    (hlog : ∀ past op, (∀ other ∈ past ++ [op], other.Within types) →
      FindsComponent (run worldStep world past) op →
      log (past ++ [op]) = log past ++ firedBy (run worldStep world past) op) :
    ListsRemovals world log ops := by
  rintro past op rest rfl
  have hwithin : ∀ other ∈ past ++ [op], other.Within types := fun other hother => hops other (by
    rcases List.mem_append.mp hother with hpast | hop
    · exact List.mem_append_left _ hpast
    · rw [List.mem_singleton.mp hop]
      simp)
  have hhere : FindsComponent (run worldStep world past) op :=
    (stepsMeet_iff_forall_cut ..).mp hfinds past op rest rfl
  have hlists := listsPresent_run hworld past fun other hother => hwithin other (List.mem_append_left _ hother)
  exact ⟨_, hlog past op hwithin hhere, (exact_firedBy_iff hlists op).mpr hhere⟩

theorem sameRemovals_of_finds (hregistered : Registered hooks observers types) (hworld : world.ListsPresent types)
    (ops : List Op) (hops : ∀ op ∈ ops, op.Within types) (hfinds : StepsMeet worldStep FindsComponent world ops) :
    SameRemovals hooks observers world ops := by
  obtain ⟨hhooked, hobserved⟩ := logs_eq hregistered hworld ops hops hfinds
  have hlists : ∀ (past : List Op) (op : Op), (∀ other ∈ past ++ [op], other.Within types) →
      (run worldStep world past).ListsPresent types ∧ op.Within types := fun past op hwithin =>
    ⟨listsPresent_run hworld past fun other hother => hwithin other (List.mem_append_left _ hother),
      hwithin op (by simp)⟩
  refine ⟨hhooked, hobserved, ?_, ?_, ?_⟩
  · apply listsRemovals_of_finds hworld hops hfinds
    intro past op hwithin _
    exact hookedRemovals_concat hregistered (hlists past op hwithin).1 (hlists past op hwithin).2
  · apply listsRemovals_of_finds hworld hops hfinds
    intro past op hwithin hhere
    rw [firedBy_eq_of_finds hhere]
    exact observedRemovals_concat hregistered (hlists past op hwithin).1 (hlists past op hwithin).2
  · apply listsRemovals_of_finds hworld hops hfinds
    intro past op _ hhere
    rw [firedBy_eq_of_finds hhere]
    exact trackedRemovals_concat world past op

-- The hooks alone tell when a removal has found nothing.
theorem finds_of_hookedExact (hregistered : Registered hooks observers types) (hworld : world.ListsPresent types)
    (ops : List Op) (hops : ∀ op ∈ ops, op.Within types)
    (hexact : ListsRemovals world (hookedRemovals hooks world) ops) :
    StepsMeet worldStep FindsComponent world ops := by
  rw [stepsMeet_iff_forall_cut]
  rintro past op rest rfl
  obtain ⟨hpast, hrest⟩ := List.forall_mem_append.mp hops
  have hlists := listsPresent_run hworld past hpast
  obtain ⟨removals, hlog, hhere⟩ := hexact past op rest rfl
  rw [hookedRemovals_concat hregistered hlists (hrest op List.mem_cons_self), List.append_cancel_left_eq] at hlog
  rw [← hlog] at hhere
  exact (exact_firedBy_iff hlists op).mp hhere

-- On every reachable world the three wrappers report the same removals, and report them exactly, in the
-- runs in which every removal finds its component under one storage kind, and in no others.
theorem sameRemovals_iff (types : List Symbol) (hooks : HookRegistry OnAddHook OnRemoveHook)
    (observers : ObserverRegistry Observer) (hregistered : Registered hooks observers types)
    (past : List SimpleWorld.Op) (hpast : ∀ op ∈ past, op.Within types) (ops : List Op)
    (hops : ∀ op ∈ ops, op.Within types) :
    let world := SimpleWorld.worldAfter past
    SameRemovals hooks observers world ops ↔ StepsMeet worldStep FindsComponent world ops := by
  intro world
  have hworld : world.ListsPresent types := SimpleWorld.listsPresent_worldAfter past hpast
  constructor
  · exact fun hsame => finds_of_hookedExact hregistered hworld ops hops hsame.hookedExact
  · exact sameRemovals_of_finds hregistered hworld ops hops

-- A registry with one nameless hook or observer for each of the ship's types.

def shipTypes : List Symbol := [SimpleWorld.hull, SimpleWorld.cloak]

def shipHooks : HookRegistry Unit Unit :=
  (HookRegistry.new.onRemove SimpleWorld.hull ()).onRemove SimpleWorld.cloak ()

def shipObservers : ObserverRegistry Unit :=
  (ObserverRegistry.new.onRemove SimpleWorld.hull ()).onRemove SimpleWorld.cloak ()

theorem registered_ship : Registered shipHooks shipObservers shipTypes := ⟨by decide, by decide⟩

-- The marker is taken off, then the ship is despawned.
theorem ship_removals_agree :
    SameRemovals shipHooks shipObservers (SimpleWorld.worldAfter SimpleWorld.markedShip)
      [.removeComponent 1 SimpleWorld.cloak, .despawnEntity 1] :=
  (sameRemovals_iff shipTypes shipHooks shipObservers registered_ship SimpleWorld.markedShip (by decide)
    [.removeComponent 1 SimpleWorld.cloak, .despawnEntity 1] (by decide)).mpr (by decide)

-- The second removal of the marker finds nothing, and the hook hears of it all the same.
theorem second_removal_fires_hook :
    ¬SameRemovals shipHooks shipObservers (SimpleWorld.worldAfter SimpleWorld.markedShip)
      [.removeComponent 1 SimpleWorld.cloak, .removeComponent 1 SimpleWorld.cloak] := by
  intro hsame
  have hlogs := hsame.hooked
  revert hlogs
  decide

end Logs

end Reactive

end Cougr
