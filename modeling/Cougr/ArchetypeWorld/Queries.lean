import Cougr.ArchetypeWorld.Operations

namespace Cougr.ArchetypeWorld

-- The candidates are copied as they are when nothing is excluded.
def archetypeQuery (world : ArchetypeWorld) (required excluded : List Symbol) : List EntityId :=
  let candidates := world.query required
  if excluded.isEmpty then candidates
  else candidates.filter fun eid => ¬(excluded.any fun ex => world.hasComponent eid ex)

-- The entities that the required and the excluded types describe; one without components is in no archetype.
def Selects (world : ArchetypeWorld) (required excluded : List Symbol) (e : EntityId) : Prop :=
  (∃ t, world.hasComponent e t) ∧ (∀ t ∈ required, world.hasComponent e t) ∧
    ∀ t ∈ excluded, ¬world.hasComponent e t

section Query

variable {world : ArchetypeWorld}

-- An entity is a member of one archetype, which has its types and no others.
theorem WellFormed.mem_query_iff (h : WellFormed world) (required : List Symbol) (e : EntityId) :
    e ∈ world.query required ↔ world.Selects required [] e := by
  simp only [mem_query, Selects, hasComponent_iff]
  constructor
  · rintro ⟨id, arch, harch, hall, hmem⟩
    have hfits := h.archetypes id arch harch
    have hof : world.archetypeOf e = some arch := by
      rw [archetypeOf, (hfits.members e).mp hmem, Option.bind_some, harch]
    obtain ⟨t, ht⟩ := List.exists_mem_of_ne_nil _ hfits.nonempty
    exact ⟨⟨t, arch, hof, ht⟩, fun t ht => ⟨arch, hof, hall t ht⟩, by simp⟩
  · rintro ⟨⟨_, arch, hof, _⟩, hall, _⟩
    obtain ⟨id, hhome, harch⟩ := Option.bind_eq_some_iff.mp hof
    refine ⟨id, arch, harch, fun t ht => ?_, ((h.archetypes id arch harch).members e).mpr hhome⟩
    obtain ⟨other, hother, hlists⟩ := hall t ht
    rw [hof] at hother
    exact Option.some.inj hother ▸ hlists

theorem mem_query_singleton (h : WellFormed world) (e : EntityId) (t : Symbol) :
    e ∈ world.query [t] ↔ world.hasComponent e t := by
  rw [h.mem_query_iff, Selects]
  simp only [List.forall_mem_singleton, List.not_mem_nil, false_imp_iff, implies_true, and_true]
  exact and_iff_right_of_imp fun hhas => ⟨t, hhas⟩

theorem WellFormed.mem_archetypeQuery_iff (h : WellFormed world) (required excluded : List Symbol)
    (e : EntityId) :
    e ∈ world.archetypeQuery required excluded ↔ world.Selects required excluded e := by
  unfold archetypeQuery
  split_ifs with hempty
  · rw [List.isEmpty_iff.mp hempty]
    exact h.mem_query_iff required e
  · simp [List.mem_filter, h.mem_query_iff, Selects, and_assoc]

-- What one archetype gives to a query has its home there.
theorem home_of_mem_members (h : WellFormed world) (required : List Symbol) {id : ArchetypeId} {e : EntityId}
    (hmem : e ∈ match world.archetypes.get id with
      | some arch => if arch.matches required then arch.entities else []
      | none => []) : world.entityArchetype.get e = some id := by
  cases harch : world.archetypes.get id with
  | none => simp [harch] at hmem
  | some arch =>
      simp only [harch] at hmem
      split_ifs at hmem
      · exact ((h.archetypes id arch harch).members e).mp hmem
      · simp at hmem

-- An entity has one home, so no two archetypes of the answer share it.
theorem nodup_query (h : WellFormed world) (required : List Symbol) : (world.query required).Nodup := by
  unfold query
  rw [List.nodup_flatMap]
  constructor
  · intro id _
    cases harch : world.archetypes.get id with
    | none => exact List.nodup_nil
    | some arch =>
        dsimp only
        split_ifs
        · exact (h.archetypes id arch harch).nodup
        · exact List.nodup_nil
  · refine world.archetypes.nodup_keys.imp fun hne e hfirst hsecond => hne ?_
    have hhome := home_of_mem_members h required hfirst
    rw [home_of_mem_members h required hsecond] at hhome
    exact (Option.some.inj hhome).symm

theorem WellFormed.nodup_archetypeQuery (h : WellFormed world) (required excluded : List Symbol) :
    (world.archetypeQuery required excluded).Nodup := by
  unfold archetypeQuery
  split_ifs
  · exact nodup_query h required
  · exact (nodup_query h required).filter _

end Query

-- After every run both queries list the entities they describe, each one once.
theorem queries_exact (ops : List Op) (required excluded : List Symbol) :
    ((worldAfter ops).query required).Nodup ∧
    (∀ e, e ∈ (worldAfter ops).query required ↔
      (∃ t, (worldAfter ops).hasComponent e t) ∧ ∀ t ∈ required, (worldAfter ops).hasComponent e t) ∧
    ((worldAfter ops).archetypeQuery required excluded).Nodup ∧
    ∀ e, e ∈ (worldAfter ops).archetypeQuery required excluded ↔
      e ∈ (worldAfter ops).query required ∧ ∀ t ∈ excluded, ¬(worldAfter ops).hasComponent e t := by
  have h := invariant_worldAfter ops
  refine ⟨nodup_query h required, fun e => ?_, h.nodup_archetypeQuery required excluded, fun e => ?_⟩
  · simp [h.mem_query_iff, Selects]
  · simp [h.mem_archetypeQuery_iff, h.mem_query_iff, Selects, and_assoc]

end Cougr.ArchetypeWorld
