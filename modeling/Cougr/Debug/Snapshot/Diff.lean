import Cougr.Debug.Snapshot.Theorems

namespace Cougr.Debug

open SimpleWorld

def WorldDiff.isEmpty (diff : WorldDiff) : Bool :=
  diff.addedEntities.isEmpty && diff.removedEntities.isEmpty && diff.addedComponents.isEmpty &&
    diff.removedComponents.isEmpty && diff.modifiedComponents.isEmpty

-- The components that are gone: those of entities that stay, and all of the entities that do not.
def goneComponents (before after : WorldSnapshot) : List (EntityId × Symbol) :=
  (diffSnapshots before after).removedComponents ++
    pairsOf (diffSnapshots before after).removedEntities before.typesOf

-- The diff of two snapshots says what became of `old` in `new`, each item once.
structure ExactDiff (before after : WorldSnapshot) (old new : EntityId → Symbol → Option Bytes) : Prop where
  shown : ∀ e t, t ∈ before.typesOf e ↔ (old e t).isSome
  added : ∀ e t, (e, t) ∈ (diffSnapshots before after).addedComponents ↔ old e t = none ∧ (new e t).isSome
  added_once : (diffSnapshots before after).addedComponents.Nodup
  modified : ∀ e t, (e, t) ∈ (diffSnapshots before after).modifiedComponents ↔
    ∃ data data', old e t = some data ∧ new e t = some data' ∧ data ≠ data'
  modified_once : (diffSnapshots before after).modifiedComponents.Nodup
  gone : ∀ e t, (e, t) ∈ goneComponents before after ↔ (old e t).isSome ∧ new e t = none
  gone_once : (goneComponents before after).Nodup
  addedEntities : ∀ e, e ∈ (diffSnapshots before after).addedEntities ↔
    (∃ t, (new e t).isSome) ∧ ∀ t, old e t = none
  addedEntities_once : (diffSnapshots before after).addedEntities.Nodup
  removedEntities : ∀ e, e ∈ (diffSnapshots before after).removedEntities ↔
    (∃ t, (old e t).isSome) ∧ ∀ t, new e t = none
  removedEntities_once : (diffSnapshots before after).removedEntities.Nodup
  empty : (diffSnapshots before after).isEmpty ↔ ∀ e t, old e t = new e t

section Exact

variable {before after : WorldSnapshot} {old new : EntityId → Symbol → Option Bytes}

theorem Shows.not_containsKey_iff (h : Shows before old) (e : EntityId) :
    ¬before.entityStates.containsKey e ↔ ∀ t, old e t = none := by
  rw [h.containsKey_iff]
  simp only [not_exists, Option.not_isSome_iff_eq_none]

theorem mem_goneComponents (hbefore : Shows before old) (hafter : Shows after new) (e : EntityId) (t : Symbol) :
    (e, t) ∈ goneComponents before after ↔ (old e t).isSome ∧ new e t = none := by
  rw [goneComponents, List.mem_append, mem_removedComponents hbefore hafter, mem_pairsOf, mem_removedEntities,
    hbefore.mem_typesOf]
  constructor
  · rintro (⟨hold, hnew, _⟩ | ⟨⟨_, hvanished⟩, hold⟩)
    · exact ⟨hold, hnew⟩
    · exact ⟨hold, (hafter.not_containsKey_iff e).mp hvanished t⟩
  · rintro ⟨hold, hnew⟩
    by_cases hstays : after.entityStates.containsKey e
    · exact Or.inl ⟨hold, hnew, hstays⟩
    · exact Or.inr ⟨⟨(hbefore.containsKey_iff e).mpr ⟨t, hold⟩, hstays⟩, hold⟩

theorem nodup_diffEntities (before after : WorldSnapshot) :
    (diffSnapshots before after).addedEntities.Nodup ∧ (diffSnapshots before after).removedEntities.Nodup := by
  rw [diffSnapshots_eq]
  exact ⟨(Map.nodup_keys _).filter _, (Map.nodup_keys _).filter _⟩

-- An entity that is gone as a whole is not one of those compared.
theorem nodup_goneComponents (hbefore : Shows before old) (hafter : Shows after new) :
    (goneComponents before after).Nodup := by
  refine List.nodup_append.mpr ⟨?_, ?_, ?_⟩
  · rw [diffSnapshots_eq]
    exact nodup_pairsOf (Map.nodup_keys _) fun e _ => nodup_removedTypes hbefore e
  · exact nodup_pairsOf (nodup_diffEntities before after).2 fun e _ => hbefore.nodup_typesOf e
  · rintro ⟨e, t⟩ hcompared _ hvanished rfl
    exact ((mem_removedEntities e).mp (mem_pairsOf.mp hvanished).1).2
      ((mem_removedComponents hbefore hafter e t).mp hcompared).2.2

-- Whatever sets the two apart shows in one of the lists.
theorem eq_of_isEmpty (hbefore : Shows before old) (hafter : Shows after new)
    (hempty : (diffSnapshots before after).isEmpty) (e : EntityId) (t : Symbol) : old e t = new e t := by
  simp only [WorldDiff.isEmpty, Bool.and_eq_true, List.isEmpty_iff] at hempty
  obtain ⟨⟨⟨⟨_, hremoved⟩, haddedTypes⟩, hremovedTypes⟩, hmodified⟩ := hempty
  have hnotAdded := mem_addedComponents hbefore hafter e t
  have hnotGone := mem_goneComponents hbefore hafter e t
  have hnotModified := mem_modifiedComponents hbefore hafter e t
  simp only [haddedTypes, List.not_mem_nil, false_iff, not_and] at hnotAdded
  simp only [goneComponents, hremovedTypes, hremoved, pairsOf, List.flatMap_nil, List.append_nil,
    List.not_mem_nil, false_iff, not_and] at hnotGone
  simp only [hmodified, List.not_mem_nil, false_iff] at hnotModified
  cases hold : old e t with
  | none => exact (Option.not_isSome_iff_eq_none.mp (hnotAdded hold)).symm
  | some data =>
      cases hnew : new e t with
      | none => exact absurd hnew (hnotGone (by rw [hold]; rfl))
      | some data' =>
          by_contra hne
          exact hnotModified ⟨data, data', hold, hnew, fun heq => hne (congrArg some heq)⟩

-- Snapshots of equal contents hold the same entities, and no component of theirs differs.
theorem isEmpty_of_eq {contents : EntityId → Symbol → Option Bytes} (hbefore : Shows before contents)
    (hafter : Shows after contents) : (diffSnapshots before after).isEmpty := by
  have hentities : ∀ e, before.entityStates.containsKey e = after.entityStates.containsKey e := by
    intro e
    rw [Bool.eq_iff_iff, hbefore.containsKey_iff, hafter.containsKey_iff]
  simp only [WorldDiff.isEmpty, Bool.and_eq_true, List.isEmpty_iff, List.eq_nil_iff_forall_not_mem, Prod.forall]
  refine ⟨⟨⟨⟨?_, ?_⟩, ?_⟩, ?_⟩, ?_⟩
  · intro e he
    rw [mem_addedEntities, hentities] at he
    exact he.2 he.1
  · intro e he
    rw [mem_removedEntities, hentities] at he
    exact he.2 he.1
  · intro e t h
    rw [mem_addedComponents hbefore hafter] at h
    simp [h.1] at h
  · intro e t h
    rw [mem_removedComponents hbefore hafter] at h
    simp [h.2.1] at h
  · intro e t h
    rw [mem_modifiedComponents hbefore hafter] at h
    obtain ⟨data, data', hold, hnew, hne⟩ := h
    exact hne (Option.some.inj (hold.symm.trans hnew))

theorem isEmpty_iff (hbefore : Shows before old) (hafter : Shows after new) :
    (diffSnapshots before after).isEmpty ↔ ∀ e t, old e t = new e t := by
  constructor
  · exact fun hempty e t => eq_of_isEmpty hbefore hafter hempty e t
  · intro hsame
    have hcontents : old = new := funext₂ hsame
    rw [← hcontents] at hafter
    exact isEmpty_of_eq hbefore hafter

theorem exactDiff_of_shows (hbefore : Shows before old) (hafter : Shows after new) :
    ExactDiff before after old new where
  shown := hbefore.mem_typesOf
  added := mem_addedComponents hbefore hafter
  added_once := by
    rw [diffSnapshots_eq]
    exact nodup_pairsOf (Map.nodup_keys _) fun e _ => nodup_addedTypes hafter e
  modified := mem_modifiedComponents hbefore hafter
  modified_once := by
    rw [diffSnapshots_eq]
    exact nodup_pairsOf (Map.nodup_keys _) fun e _ => nodup_modifiedTypes hafter e
  gone := mem_goneComponents hbefore hafter
  gone_once := nodup_goneComponents hbefore hafter
  addedEntities e := by rw [mem_addedEntities, hafter.containsKey_iff, hbefore.not_containsKey_iff]
  addedEntities_once := (nodup_diffEntities before after).1
  removedEntities e := by rw [mem_removedEntities, hbefore.containsKey_iff, hafter.not_containsKey_iff]
  removedEntities_once := (nodup_diffEntities before after).2
  empty := isEmpty_iff hbefore hafter

theorem shows_worldAfter {kind : Symbol → ComponentStorage} (ops : List Op)
    (hfollows : ∀ op ∈ ops, op.Follows kind) :
    Shows (takeSnapshot (worldAfter ops)) (worldAfter ops).getComponent :=
  shows_takeSnapshot (invariant_worldAfter ops hfollows)

-- For worlds with one storage kind a type the diff of their snapshots is the difference of the worlds.
theorem diff_exact (kind kind' : Symbol → ComponentStorage) (ops ops' : List Op)
    (hfollows : ∀ op ∈ ops, op.Follows kind) (hfollows' : ∀ op ∈ ops', op.Follows kind') :
    ExactDiff (takeSnapshot (worldAfter ops)) (takeSnapshot (worldAfter ops'))
      (worldAfter ops).getComponent (worldAfter ops').getComponent :=
  exactDiff_of_shows (shows_worldAfter ops hfollows) (shows_worldAfter ops' hfollows')

-- The first entity carries a sword.
def armed (data : Bytes) : List Op := [.spawnEntity, .addComponentWithStorage 1 (symbolShort "sword") data .Table]

theorem follows_armed (data : Bytes) : ∀ op ∈ armed data, op.Follows fun _ => .Table := by
  simp [armed, Op.Follows]

-- A sword is picked up between the two snapshots.
theorem diff_exact_picked_up :
    ExactDiff (takeSnapshot (worldAfter [.spawnEntity])) (takeSnapshot (worldAfter (armed [3])))
      (worldAfter [.spawnEntity]).getComponent (worldAfter (armed [3])).getComponent :=
  diff_exact (fun _ => .Table) (fun _ => .Table) _ _ (by decide) (follows_armed [3])

end Exact

section Mirror

-- What one diff calls added the other calls removed.
structure MirrorImages (forward backward : WorldDiff) : Prop where
  addedEntities : ∀ e, e ∈ backward.addedEntities ↔ e ∈ forward.removedEntities
  removedEntities : ∀ e, e ∈ backward.removedEntities ↔ e ∈ forward.addedEntities
  addedComponents : ∀ pair, pair ∈ backward.addedComponents ↔ pair ∈ forward.removedComponents
  removedComponents : ∀ pair, pair ∈ backward.removedComponents ↔ pair ∈ forward.addedComponents
  modifiedComponents : ∀ pair, pair ∈ backward.modifiedComponents ↔ pair ∈ forward.modifiedComponents

variable {first second : WorldSnapshot} {old new : EntityId → Symbol → Option Bytes}

-- An addition is mirrored unless its entity is on one side only: the loops over removals skip that entity.
theorem added_mirrored_iff (hfirst : Shows first old) (hsecond : Shows second new) :
    (∀ pair, pair ∈ (diffSnapshots second first).addedComponents ↔
      pair ∈ (diffSnapshots first second).removedComponents) ↔
    ∀ e, first.entityStates.containsKey e → second.entityStates.containsKey e := by
  simp only [Prod.forall, mem_addedComponents hsecond hfirst, mem_removedComponents hfirst hsecond]
  constructor
  · intro hmirrored e hin
    obtain ⟨t, hold⟩ := (hfirst.containsKey_iff e).mp hin
    by_contra hout
    have hnew := (hsecond.not_containsKey_iff e).mp hout t
    exact hout ((hmirrored e t).mp ⟨hnew, hold⟩).2.2
  · intro hstays e t
    constructor
    · rintro ⟨hnew, hold⟩
      exact ⟨hold, hnew, hstays e ((hfirst.containsKey_iff e).mpr ⟨t, hold⟩)⟩
    · rintro ⟨hold, hnew, _⟩
      exact ⟨hnew, hold⟩

theorem mirrorImages_iff (hfirst : Shows first old) (hsecond : Shows second new) :
    MirrorImages (diffSnapshots first second) (diffSnapshots second first) ↔
      ∀ e, first.entityStates.containsKey e = second.entityStates.containsKey e := by
  have hsplit : (∀ e, first.entityStates.containsKey e = second.entityStates.containsKey e) ↔
      (∀ e, first.entityStates.containsKey e → second.entityStates.containsKey e) ∧
        ∀ e, second.entityStates.containsKey e → first.entityStates.containsKey e := by
    rw [← forall_and]
    exact forall_congr' fun e => Bool.eq_iff_iff.trans iff_def
  rw [hsplit]
  constructor
  · intro hmirror
    exact ⟨(added_mirrored_iff hfirst hsecond).mp hmirror.addedComponents,
      (added_mirrored_iff hsecond hfirst).mp fun pair => (hmirror.removedComponents pair).symm⟩
  · rintro ⟨hforward, hbackward⟩
    constructor
    · exact fun e => (mem_addedEntities e).trans (mem_removedEntities e).symm
    · exact fun e => (mem_removedEntities e).trans (mem_addedEntities e).symm
    · exact (added_mirrored_iff hfirst hsecond).mpr hforward
    · exact fun pair => ((added_mirrored_iff hsecond hfirst).mpr hbackward pair).symm
    · rintro ⟨e, t⟩
      rw [mem_modifiedComponents hsecond hfirst, mem_modifiedComponents hfirst hsecond]
      constructor
      · rintro ⟨data, data', hnew, hold, hne⟩
        exact ⟨data', data, hold, hnew, hne.symm⟩
      · rintro ⟨data, data', hold, hnew, hne⟩
        exact ⟨data', data, hnew, hold, hne.symm⟩

-- The diffs of two worlds mirror each other exactly when the worlds have the same entities.
theorem diffs_mirror_iff (kind kind' : Symbol → ComponentStorage) (ops ops' : List Op)
    (hfollows : ∀ op ∈ ops, op.Follows kind) (hfollows' : ∀ op ∈ ops', op.Follows kind') :
    MirrorImages (diffSnapshots (takeSnapshot (worldAfter ops)) (takeSnapshot (worldAfter ops')))
        (diffSnapshots (takeSnapshot (worldAfter ops')) (takeSnapshot (worldAfter ops))) ↔
      ∀ e, (takeSnapshot (worldAfter ops)).entityStates.containsKey e =
        (takeSnapshot (worldAfter ops')).entityStates.containsKey e :=
  mirrorImages_iff (shows_worldAfter ops hfollows) (shows_worldAfter ops' hfollows')

-- The sword is sharpened, and no entity comes or goes.
theorem sharpened_diffs_mirror :
    MirrorImages (diffSnapshots (takeSnapshot (worldAfter (armed [3]))) (takeSnapshot (worldAfter (armed [4]))))
      (diffSnapshots (takeSnapshot (worldAfter (armed [4]))) (takeSnapshot (worldAfter (armed [3])))) := by
  refine (diffs_mirror_iff (fun _ => .Table) (fun _ => .Table) (armed [3]) (armed [4]) (follows_armed [3])
    (follows_armed [4])).mpr fun e => ?_
  rw [Map.containsKey_eq_isSome, Map.containsKey_eq_isSome, get_takeSnapshot, get_takeSnapshot, Option.isSome_map,
    Option.isSome_map]
  rfl

-- The entity vanishes with its sword: a sword is added backwards, and none is removed forwards.
theorem vanished_entity_not_mirrored :
    ¬MirrorImages (diffSnapshots (takeSnapshot (worldAfter (armed [3]))) (takeSnapshot (worldAfter [])))
      (diffSnapshots (takeSnapshot (worldAfter [])) (takeSnapshot (worldAfter (armed [3])))) := by
  intro hmirror
  have hsword := hmirror.addedComponents (1, symbolShort "sword")
  revert hsword
  decide

end Mirror

end Cougr.Debug
