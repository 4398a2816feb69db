import Cougr.StorageWorld.Durability

namespace Cougr

open StorageWorld Transition

namespace Host

-- A session starts with nothing left to write: first of all, or right after a flush.
def LoadsFlushed (calls : List Call) : Prop :=
  calls.IsChain fun previous next => next = .loadMetadata → previous = .flush

instance : DecidablePred LoadsFlushed := fun calls =>
  inferInstanceAs (Decidable (calls.IsChain fun previous next => next = .loadMetadata → previous = .flush))

-- The metadata is what a session would find of it, unless a flush is to write it.
def MetaKept (host : Host) : Prop :=
  host.world.dirty.metaDirty = false → storedMetadata host.env = host.world.metadata

section Metadata

variable (env : Storage) (world : StorageWorld)

theorem metadata_removeComponent (e : EntityId) (t : Symbol) :
    ∃ version, (world.removeComponent e t).2.metadata = { world.metadata with version } := by
  by_cases hthere : (world.getComponent e t).isSome
  · rw [world.removeComponent_of_isSome hthere]
    exact ⟨world.metadata.version + 1, rfl⟩
  · rw [world.removeComponent_of_none (by simpa using hthere)]
    exact ⟨world.metadata.version, rfl⟩

-- Besides spawns and despawns the operations move the version at most.
theorem metadata_op {op : Op} (hspawn : op ≠ .spawnEntity) (hdespawn : ∀ e, op ≠ .despawnEntity e) :
    ∃ version, (world.step env op).metadata = { world.metadata with version } := by
  cases op with
  | loadEntity e => exact ⟨world.metadata.version, by simp [StorageWorld.step]⟩
  | spawnEntity => exact absurd rfl hspawn
  | addComponent e t d => exact ⟨world.metadata.version + 1, rfl⟩
  | removeComponent e t => exact metadata_removeComponent world e t
  | despawnEntity e => exact absurd rfl (hdespawn e)

theorem metaKept_op {host : Host} (h : MetaKept host) (op : Op) : MetaKept (host.step (.op op)) := by
  cases op with
  | loadEntity e => simpa [MetaKept, step, StorageWorld.step] using h
  | spawnEntity =>
      intro hclean
      cases hclean
  | addComponent e t d =>
      intro hclean
      cases hclean
  | removeComponent e t =>
      by_cases hthere : (host.world.getComponent e t).isSome
      · intro hclean
        simp only [step, StorageWorld.step] at hclean
        rw [host.world.removeComponent_of_isSome hthere] at hclean
        cases hclean
      · simp only [MetaKept, step, StorageWorld.step]
        rw [host.world.removeComponent_of_none (by simpa using hthere)]
        exact h
  | despawnEntity e =>
      intro hclean
      cases hclean

theorem metaKept_step {host : Host} (h : MetaKept host) (call : Call) : MetaKept (host.step call) := by
  cases call with
  | loadMetadata => exact fun _ => rfl
  | op op => exact metaKept_op h op
  | flush =>
      intro _
      have hmetadata : (host.step .flush).world.metadata = host.world.metadata := by
        simp [step, flush_world]
      rw [hmetadata]
      exact storedMetadata_flush_of_kept h

theorem metaKept_run (calls : List Call) : MetaKept (run step empty calls) :=
  run_invariant_of_step MetaKept (fun _ call h => metaKept_step h call) (fun _ => rfl) calls

-- A session that starts with nothing left to write knows what the last one knew.
theorem metadata_loadMetadata {past : List Call} (h : LoadsFlushed (past ++ [.loadMetadata])) :
    (run step empty (past ++ [.loadMetadata])).world.metadata = (run step empty past).world.metadata := by
  rw [run_concat]
  rcases List.eq_nil_or_concat past with rfl | ⟨before, last, rfl⟩
  · rfl
  · rw [List.concat_eq_append] at h ⊢
    rw [LoadsFlushed, List.append_assoc, List.singleton_append, List.isChain_append_cons_cons] at h
    have hlast : last = .flush := h.2.1 rfl
    subst hlast
    have hclean : (run step empty (before ++ [.flush])).world.dirty = .new := by
      rw [run_concat]
      simp only [step, flush_world]
    exact metaKept_run (before ++ [.flush]) (by rw [hclean]; rfl)

end Metadata

section Roster

def metadataAfter (calls : List Call) : WorldMetadata := (run step empty calls).world.metadata

-- What one more call does to the metadata, sessions being started with nothing left to write.
theorem metadataAfter_concat {past : List Call} {call : Call} (h : LoadsFlushed (past ++ [call])) :
    (call = .op .spawnEntity ∧ metadataAfter (past ++ [call]) =
      { metadataAfter past with
        nextEntityId := (metadataAfter past).nextEntityId + 1
        entityCount := (metadataAfter past).entityCount + 1
        entityIds := (metadataAfter past).entityIds ++ [(metadataAfter past).nextEntityId] }) ∨
    (∃ e, call = .op (.despawnEntity e) ∧ metadataAfter (past ++ [call]) =
      { metadataAfter past with
        version := (metadataAfter past).version + 1
        entityCount := (metadataAfter past).entityCount - 1
        entityIds := (metadataAfter past).entityIds.filter (· ≠ e) }) ∨
    (call ≠ .op .spawnEntity ∧ ∀ e, call ≠ .op (.despawnEntity e)) ∧
      ∃ version, metadataAfter (past ++ [call]) = { metadataAfter past with version } := by
  cases call with
  | loadMetadata =>
      exact Or.inr (Or.inr ⟨⟨nofun, nofun⟩, _, metadata_loadMetadata h⟩)
  | flush =>
      refine Or.inr (Or.inr ⟨⟨nofun, nofun⟩, (metadataAfter past).version, ?_⟩)
      rw [metadataAfter, run_concat]
      simp only [step, flush_world]
      rfl
  | op op =>
      rw [metadataAfter, run_concat]
      by_cases hspawn : op = .spawnEntity
      · subst hspawn
        exact Or.inl ⟨rfl, rfl⟩
      · by_cases hdespawn : ∃ e, op = .despawnEntity e
        · obtain ⟨e, rfl⟩ := hdespawn
          exact Or.inr (Or.inl ⟨e, rfl, rfl⟩)
        · have hother : ∀ e, op ≠ .despawnEntity e := fun e he => hdespawn ⟨e, he⟩
          refine Or.inr (Or.inr ⟨⟨by simpa using hspawn, by simpa using hother⟩, ?_⟩)
          exact metadata_op _ _ hspawn hother

-- The ids listed have been handed out, each once.
theorem listed_ids {calls : List Call} (h : LoadsFlushed calls) :
    (∀ e ∈ (metadataAfter calls).entityIds, e < (metadataAfter calls).nextEntityId) ∧
      (metadataAfter calls).entityIds.Nodup := by
  induction calls using List.reverseRecOn with
  | nil => exact ⟨fun e he => absurd he List.not_mem_nil, List.nodup_nil⟩
  | append_singleton past call ih =>
      obtain ⟨hbelow, hnodup⟩ := ih h.left_of_append
      rcases metadataAfter_concat h with ⟨_, hafter⟩ | ⟨e, _, hafter⟩ | ⟨_, version, hafter⟩
      · rw [hafter]
        constructor
        · intro e he
          rcases List.mem_append.mp he with hold | hnew
          · exact Nat.lt_succ_of_lt (hbelow e hold)
          · rw [List.mem_singleton.mp hnew]
            exact Nat.lt_succ_self _
        · apply List.nodup_append.mpr ⟨hnodup, List.nodup_singleton _, ?_⟩
          intro e he next hnext
          rw [List.mem_singleton.mp hnext]
          exact Nat.ne_of_lt (hbelow e he)
      · rw [hafter]
        exact ⟨fun other hother => hbelow other (List.mem_filter.mp hother).1, hnodup.filter _⟩
      · rw [hafter]
        exact ⟨hbelow, hnodup⟩

-- An id that was handed out stays listed until it is despawned.
theorem spawned_listed {past rest : List Call} (h : LoadsFlushed (past ++ .op .spawnEntity :: rest))
    (hkept : .op (.despawnEntity (metadataAfter past).nextEntityId) ∉ rest) :
    (metadataAfter past).nextEntityId ∈ (metadataAfter (past ++ .op .spawnEntity :: rest)).entityIds := by
  induction rest using List.reverseRecOn with
  | nil =>
      rw [metadataAfter, run_concat]
      exact List.mem_append_right _ (List.mem_singleton_self _)
  | append_singleton rest call ih =>
      rw [← List.cons_append, ← List.append_assoc] at h ⊢
      rw [List.mem_append, not_or, List.mem_singleton] at hkept
      have hlisted := ih h.left_of_append hkept.1
      rcases metadataAfter_concat h with ⟨_, hafter⟩ | ⟨e, rfl, hafter⟩ | ⟨_, version, hafter⟩
      · rw [hafter]
        exact List.mem_append_left _ hlisted
      · rw [hafter]
        have hne : (metadataAfter past).nextEntityId ≠ e := by simpa using hkept.2
        exact List.mem_filter.mpr ⟨hlisted, by simpa using hne⟩
      · rw [hafter]
        exact hlisted

-- The metadata counts the live entities in the state after these calls.
structure CountsLive (calls : List Call) : Prop where
  nodup : (metadataAfter calls).entityIds.Nodup
  counted : (metadataAfter calls).entityCount = (metadataAfter calls).entityIds.length
  spawned : ∀ past rest, calls = past ++ .op .spawnEntity :: rest →
    .op (.despawnEntity (run step empty past).world.spawnEntity.1) ∉ rest →
    (run step empty past).world.spawnEntity.1 ∈ (metadataAfter calls).entityIds

-- A despawn takes an id off the list, unless there is none to take.
def DespawnsListed (host : Host) : Call → Prop
  | .op (.despawnEntity e) => e ∈ host.world.metadata.entityIds ∨ host.world.metadata.entityIds = []
  | .op (.loadEntity _) => True
  | .op .spawnEntity => True
  | .op (.addComponent _ _ _) => True
  | .op (.removeComponent _ _) => True
  | .loadMetadata => True
  | .flush => True

instance (host : Host) : (call : Call) → Decidable (DespawnsListed host call)
  | .op (.despawnEntity _) => inferInstanceAs (Decidable (_ ∨ _))
  | .op (.loadEntity _) => inferInstanceAs (Decidable True)
  | .op .spawnEntity => inferInstanceAs (Decidable True)
  | .op (.addComponent _ _ _) => inferInstanceAs (Decidable True)
  | .op (.removeComponent _ _) => inferInstanceAs (Decidable True)
  | .loadMetadata => inferInstanceAs (Decidable True)
  | .flush => inferInstanceAs (Decidable True)

-- The list loses one id exactly when the saturating count goes down by one.
theorem length_filter_ne_iff {ids : List EntityId} (hnodup : ids.Nodup) (e : EntityId) :
    ids.length - 1 = (ids.filter (· ≠ e)).length ↔ e ∈ ids ∨ ids = [] := by
  have hfilter : ids.filter (· ≠ e) = ids.erase e := by
    rw [hnodup.erase_eq_filter]
    apply List.filter_congr
    intro other _
    by_cases hother : other = e <;> simp [hother]
  rw [hfilter, List.length_erase]
  by_cases he : e ∈ ids
  · simp [he]
  · cases ids with
    | nil => simp
    | cons first rest => simp [he]

theorem counted_of_despawnsListed {calls : List Call} (h : LoadsFlushed calls)
    (hdespawns : StepsMeet step DespawnsListed empty calls) :
    (metadataAfter calls).entityCount = (metadataAfter calls).entityIds.length := by
  induction calls using List.reverseRecOn with
  | nil => rfl
  | append_singleton past call ih =>
      obtain ⟨hpast, hcall⟩ := (stepsMeet_concat ..).mp hdespawns
      have hcounted := ih h.left_of_append hpast
      rcases metadataAfter_concat h with ⟨_, hafter⟩ | ⟨e, rfl, hafter⟩ | ⟨_, version, hafter⟩
      · rw [hafter, List.length_append, List.length_singleton, ← hcounted]
      · rw [hafter, ← (length_filter_ne_iff (listed_ids h.left_of_append).2 e).mpr hcall, ← hcounted]
      · rw [hafter]
        exact hcounted

-- Ids are listed once and live entities are listed in any case. The count is theirs throughout a run
-- exactly when every despawn of the run finds its id on the list, or no id at all.
theorem countsLive_iff (calls : List Call) (h : LoadsFlushed calls) :
    (∀ past, past <+: calls → CountsLive past) ↔ StepsMeet step DespawnsListed empty calls := by
  constructor
  · intro hcounts
    rw [stepsMeet_iff_forall_cut]
    rintro past call rest rfl
    cases call with
    | loadMetadata => trivial
    | flush => trivial
    | op op =>
        cases op with
        | loadEntity e => trivial
        | spawnEntity => trivial
        | addComponent e t d => trivial
        | removeComponent e t => trivial
        | despawnEntity e =>
            have hbefore := hcounts past (List.prefix_append ..)
            have hafter := (hcounts (past ++ [.op (.despawnEntity e)]) (by simp)).counted
            rw [metadataAfter, run_concat] at hafter
            apply (length_filter_ne_iff hbefore.nodup e).mp
            rw [← hbefore.counted]
            exact hafter
  · rintro hdespawns past ⟨rest, rfl⟩
    have hpast : LoadsFlushed past := h.left_of_append
    refine ⟨(listed_ids hpast).2, counted_of_despawnsListed hpast ((stepsMeet_append ..).mp hdespawns).1, ?_⟩
    rintro before after rfl hkept
    exact spawned_listed hpast hkept

-- The second despawn of an id takes nothing off the list and still counts down.
theorem repeated_despawn_miscounts :
    LoadsFlushed [.op .spawnEntity, .op .spawnEntity, .op (.despawnEntity 1), .op (.despawnEntity 1)] ∧
      ¬CountsLive [.op .spawnEntity, .op .spawnEntity, .op (.despawnEntity 1), .op (.despawnEntity 1)] := by
  refine ⟨by decide, fun hcounts => ?_⟩
  have hcounted := hcounts.counted
  revert hcounted
  decide

theorem two_sessions_counted :
    CountsLive [.op .spawnEntity, .op .spawnEntity, .flush, .loadMetadata, .op (.despawnEntity 1)] :=
  (countsLive_iff [.op .spawnEntity, .op .spawnEntity, .flush, .loadMetadata, .op (.despawnEntity 1)]
    (by decide)).mpr (by decide) _ List.prefix_rfl

end Roster

end Host

end Cougr
