import Cougr.ArchetypeWorld.Lemmas

namespace Cougr.ArchetypeWorld

-- One archetype against the index, the homes of the entities and the id counter.
structure ArchetypeFits (index : Map (List Symbol) ArchetypeId) (homes : Map EntityId ArchetypeId)
    (next id : ArchetypeId) (arch : Archetype) : Prop where
  nonempty : arch.componentTypes ≠ []
  sorted : arch.componentTypes.Pairwise (· < ·)
  named : arch.id = id
  below : id < next
  indexed : index.get arch.componentTypes = some id
  nodup : arch.entities.Nodup
  members : ∀ e, e ∈ arch.entities ↔ homes.get e = some id
  stored : ∀ e t, (arch.data.get (e, t)).isSome ↔ e ∈ arch.entities ∧ t ∈ arch.componentTypes

structure WellFormed (world : ArchetypeWorld) : Prop where
  archetypes : ∀ id arch, world.archetypes.get id = some arch →
    ArchetypeFits world.archetypeIndex world.entityArchetype world.nextArchetypeId id arch
  index : ∀ types id, world.archetypeIndex.get types = some id →
    ∃ arch, world.archetypes.get id = some arch ∧ arch.componentTypes = types
  homes : ∀ e id, world.entityArchetype.get e = some id → (world.archetypes.get id).isSome

theorem wellFormed_new : WellFormed new where
  archetypes id arch h := by simp [new] at h
  index types id h := by simp [new] at h
  homes e id h := by simp [new] at h

variable {world : ArchetypeWorld}

theorem WellFormed.archetypeOf_eq (h : WellFormed world) {e : EntityId} {id : ArchetypeId}
    (hhome : world.entityArchetype.get e = some id) :
    ∃ arch, world.archetypes.get id = some arch ∧ world.archetypeOf e = some arch ∧ e ∈ arch.entities := by
  obtain ⟨arch, harch⟩ := Option.isSome_iff_exists.mp (h.homes e id hhome)
  refine ⟨arch, harch, ?_, ((h.archetypes id arch harch).members e).mpr hhome⟩
  rw [archetypeOf, hhome, Option.bind_some, harch]

-- A component of an entity is there exactly when its archetype lists the type.
theorem WellFormed.hasComponent_eq_isSome (h : WellFormed world) (e : EntityId) (t : Symbol) :
    world.hasComponent e t = (world.getComponent e t).isSome := by
  rw [Bool.eq_iff_iff, hasComponent_iff, getComponent_eq]
  cases hhome : world.entityArchetype.get e with
  | none => simp [archetypeOf, hhome]
  | some id =>
      obtain ⟨arch, harch, hof, hmem⟩ := h.archetypeOf_eq hhome
      have hstored := (h.archetypes id arch harch).stored e t
      rw [hof, Option.bind_some, hstored]
      simp [hmem]

section GetOrCreate

theorem getOrCreateArchetype_of_some {types : List Symbol} {id : ArchetypeId}
    (hindex : world.archetypeIndex.get types = some id) :
    world.getOrCreateArchetype types = (id, world) := by
  rw [getOrCreateArchetype, hindex]

theorem getOrCreateArchetype_of_none {types : List Symbol} (hindex : world.archetypeIndex.get types = none) :
    world.getOrCreateArchetype types = (world.nextArchetypeId, { world with
      nextArchetypeId := world.nextArchetypeId + 1
      archetypes := world.archetypes.set world.nextArchetypeId (Archetype.new world.nextArchetypeId types)
      archetypeIndex := world.archetypeIndex.set types world.nextArchetypeId }) := by
  rw [getOrCreateArchetype, hindex]

-- The archetype of a list of types exists afterwards; only an empty one is ever added.
theorem wellFormed_getOrCreateArchetype (h : WellFormed world) {types : List Symbol} (hnonempty : types ≠ [])
    (hsorted : types.Pairwise (· < ·)) : WellFormed (world.getOrCreateArchetype types).2 := by
  cases hindex : world.archetypeIndex.get types with
  | some id =>
      rw [getOrCreateArchetype_of_some hindex]
      exact h
  | none =>
      have hunused : world.archetypes.get world.nextArchetypeId = none := by
        cases harch : world.archetypes.get world.nextArchetypeId with
        | none => rfl
        | some arch => exact absurd (h.archetypes _ arch harch).below (Nat.lt_irrefl _)
      rw [getOrCreateArchetype_of_none hindex]
      constructor
      · intro id arch harch
        simp only [Map.get_set] at harch
        split_ifs at harch with hid
        · cases harch
          subst hid
          refine ⟨hnonempty, hsorted, rfl, Nat.lt_succ_self _, ?_, List.nodup_nil, ?_, ?_⟩
          · exact Map.get_set_self ..
          · intro e
            have hnohome : world.entityArchetype.get e ≠ some world.nextArchetypeId := by
              intro hhome
              have hsome := h.homes e _ hhome
              simp [hunused] at hsome
            simpa [Archetype.new] using hnohome
          · simp [Archetype.new]
        · have hfits := h.archetypes id arch harch
          refine { hfits with below := Nat.lt_succ_of_lt hfits.below, indexed := ?_ }
          have hne : arch.componentTypes ≠ types := by
            intro heq
            have hindexed := hfits.indexed
            rw [heq, hindex] at hindexed
            cases hindexed
          rw [Map.get_set, if_neg hne]
          exact hfits.indexed
      · intro other id hget
        simp only [Map.get_set] at hget ⊢
        split_ifs at hget with hother
        · cases hget
          exact ⟨_, if_pos rfl, hother.symm⟩
        · obtain ⟨arch, harch, htypes⟩ := h.index other id hget
          have hid : id ≠ world.nextArchetypeId := by
            rintro rfl
            rw [hunused] at harch
            cases harch
          exact ⟨arch, by rw [if_neg hid, harch], htypes⟩
      · intro e id hhome
        rw [Map.get_set]
        split_ifs
        · rfl
        · exact h.homes e id hhome

theorem entityArchetype_getOrCreateArchetype (types : List Symbol) :
    (world.getOrCreateArchetype types).2.entityArchetype = world.entityArchetype := by
  unfold getOrCreateArchetype
  split <;> rfl

theorem archetypeOf_getOrCreateArchetype (h : WellFormed world) (types : List Symbol) (e : EntityId) :
    (world.getOrCreateArchetype types).2.archetypeOf e = world.archetypeOf e := by
  cases hindex : world.archetypeIndex.get types with
  | some id => rw [getOrCreateArchetype_of_some hindex]
  | none =>
      rw [getOrCreateArchetype_of_none hindex]
      simp only [archetypeOf]
      cases hhome : world.entityArchetype.get e with
      | none => rfl
      | some id =>
          obtain ⟨arch, harch, _⟩ := h.archetypeOf_eq hhome
          have hbelow : id ≠ world.nextArchetypeId := Nat.ne_of_lt (h.archetypes id arch harch).below
          simp [Map.get_set, hbelow]

theorem get_getOrCreateArchetype (h : WellFormed world) (types : List Symbol) :
    ∃ target, (world.getOrCreateArchetype types).2.archetypes.get (world.getOrCreateArchetype types).1 =
      some target ∧ target.componentTypes = types := by
  cases hindex : world.archetypeIndex.get types with
  | some id =>
      rw [getOrCreateArchetype_of_some hindex]
      exact h.index types id hindex
  | none =>
      rw [getOrCreateArchetype_of_none hindex]
      exact ⟨_, Map.get_set_self .., rfl⟩

end GetOrCreate

section Replace

variable {id : ArchetypeId} {arch arch' : Archetype} {homes : Map EntityId ArchetypeId}

-- One archetype is rewritten, under its own types, and entities that move only move into it.
theorem wellFormed_replace (h : WellFormed world) (harch : world.archetypes.get id = some arch)
    (hfits : ArchetypeFits world.archetypeIndex homes world.nextArchetypeId id arch')
    (htypes : arch'.componentTypes = arch.componentTypes)
    (hothers : ∀ other ≠ id, ∀ arch, world.archetypes.get other = some arch →
      ArchetypeFits world.archetypeIndex homes world.nextArchetypeId other arch)
    (hhomes : ∀ member other, homes.get member = some other →
      other = id ∨ world.entityArchetype.get member = some other) :
    WellFormed { world with archetypes := world.archetypes.set id arch', entityArchetype := homes } := by
  constructor
  · intro other arch'' hget
    simp only [Map.get_set] at hget
    split_ifs at hget with hother
    · cases hget
      exact hother ▸ hfits
    · exact hothers other hother arch'' hget
  · intro types other hindex
    obtain ⟨arch'', harch'', htypes'⟩ := h.index types other hindex
    simp only [Map.get_set]
    by_cases hother : other = id
    · subst hother
      rw [harch] at harch''
      cases harch''
      exact ⟨arch', if_pos rfl, htypes.trans htypes'⟩
    · exact ⟨arch'', by rw [if_neg hother, harch''], htypes'⟩
  · intro member other hmember
    simp only [Map.get_set]
    split_ifs with hother
    · rfl
    · exact h.homes member other ((hhomes member other hmember).resolve_left hother)

end Replace

section Leave

-- The entity is taken out of its archetype and has none for the moment.
def leaveArchetype (world : ArchetypeWorld) (e : EntityId) (id : ArchetypeId) (arch : Archetype) :
    ArchetypeWorld :=
  { world with
    archetypes := world.archetypes.set id (arch.removeEntity e).2
    entityArchetype := world.entityArchetype.erase e }

variable {e : EntityId} {id : ArchetypeId} {arch : Archetype}

theorem archetypeFits_removeEntity {index : Map (List Symbol) ArchetypeId} {homes : Map EntityId ArchetypeId}
    {next : ArchetypeId} (hfits : ArchetypeFits index homes next id arch) :
    ArchetypeFits index (homes.erase e) next id (arch.removeEntity e).2 := by
  obtain ⟨hnonempty, hsorted, hid, hbelow, hindexed, hnodup, hmembers, hstored⟩ := hfits
  refine ⟨hnonempty, hsorted, hid, hbelow, hindexed, hnodup.filter _, fun other => ?_, fun other t => ?_⟩
  · rw [Archetype.entities_removeEntity, List.mem_filter, hmembers, Map.get_erase]
    by_cases hother : other = e <;> simp [hother]
  · rw [Archetype.data_removeEntity, Archetype.entities_removeEntity, List.mem_filter,
      Archetype.componentTypes_removeEntity]
    have hbefore := hstored other t
    by_cases hother : other = e
    · by_cases ht : t ∈ arch.componentTypes
      · simp [hother, ht]
      · simpa [hother, ht] using hbefore
    · simpa [hother] using hbefore

-- An archetype the entity is not in does not notice that it loses its home.
theorem archetypeFits_erase {index : Map (List Symbol) ArchetypeId} {homes : Map EntityId ArchetypeId}
    {next other : ArchetypeId} (hfits : ArchetypeFits index homes next other arch)
    (hhome : homes.get e ≠ some other) : ArchetypeFits index (homes.erase e) next other arch := by
  refine { hfits with members := fun member => ?_ }
  rw [hfits.members, Map.get_erase]
  by_cases hmember : member = e
  · simp [hmember, hhome]
  · simp [hmember]

theorem wellFormed_leaveArchetype (h : WellFormed world) (hhome : world.entityArchetype.get e = some id)
    (harch : world.archetypes.get id = some arch) : WellFormed (world.leaveArchetype e id arch) := by
  apply wellFormed_replace h harch (archetypeFits_removeEntity (h.archetypes id arch harch)) rfl
  · intro other hother arch' hget
    apply archetypeFits_erase (h.archetypes other arch' hget)
    rw [hhome]
    exact fun heq => hother (Option.some.inj heq).symm
  · intro member other hmember
    rw [Map.get_erase] at hmember
    split_ifs at hmember
    exact Or.inr hmember

theorem getComponent_leaveArchetype (harch : world.archetypes.get id = some arch) (other : EntityId)
    (t : Symbol) : (world.leaveArchetype e id arch).getComponent other t =
      if other = e then none else world.getComponent other t := by
  simp only [getComponent_eq, archetypeOf, leaveArchetype, Map.get_erase]
  by_cases hother : other = e
  · simp [hother]
  · simp only [hother, if_false]
    cases hother' : world.entityArchetype.get other with
    | none => rfl
    | some otherId =>
        simp only [Option.bind_some, Map.get_set]
        split_ifs with hid
        · subst hid
          rw [harch, Option.bind_some, Option.bind_some, Archetype.data_removeEntity,
            if_neg fun heq => hother heq.1]
        · rfl

end Leave

section Enter

variable {e : EntityId} {types : List Symbol} {contents : Symbol → Option Bytes}
  {fill : Archetype → Archetype}

-- Whether the entity still has its old home does not matter to the archetype it enters.
theorem enterArchetype_erase (world : ArchetypeWorld) (e : EntityId) (types : List Symbol)
    (fill : Archetype → Archetype) :
    { world with entityArchetype := world.entityArchetype.erase e }.enterArchetype e types fill =
      world.enterArchetype e types fill := by
  have hset : ∀ id, (world.entityArchetype.erase e).set e id = world.entityArchetype.set e id := by
    intro id
    ext1 other
    simp only [Map.get_set, Map.get_erase]
    split_ifs <;> rfl
  unfold enterArchetype getOrCreateArchetype
  dsimp only
  cases world.archetypeIndex.get types <;> simp only [hset]

-- What `enterArchetype` does to a world in which the archetype of the types exists.
theorem enterArchetype_eq (h : WellFormed world) (hfill : Archetype.Fills e contents fill) :
    ∃ (next : ArchetypeWorld) (id : ArchetypeId) (target : Archetype) (data : Map (EntityId × Symbol) Bytes),
      next = (world.getOrCreateArchetype types).2 ∧ next.archetypes.get id = some target ∧
      target.componentTypes = types ∧
      world.enterArchetype e types fill = { next with
        archetypes := next.archetypes.set id { target with entities := target.entities ++ [e], data }
        entityArchetype := next.entityArchetype.set e id } ∧
      ∀ key, data.get key =
        if key.1 = e then (contents key.2).or (target.data.get key) else target.data.get key := by
  obtain ⟨target, htarget, htypes⟩ := get_getOrCreateArchetype h types
  obtain ⟨data, hdata, hget⟩ := hfill (target.addEntity e)
  refine ⟨_, _, target, data, rfl, htarget, htypes, ?_, hget⟩
  have harchetypes : (world.enterArchetype e types fill).archetypes =
      (world.getOrCreateArchetype types).2.archetypes.set (world.getOrCreateArchetype types).1
        (fill (target.addEntity e)) := by
    simp only [enterArchetype, htarget]
  rw [hdata] at harchetypes
  simp only [enterArchetype] at harchetypes ⊢
  rw [harchetypes]
  rfl

-- A member more, with a component of each type.
theorem archetypeFits_addEntity {index : Map (List Symbol) ArchetypeId} {homes : Map EntityId ArchetypeId}
    {next id : ArchetypeId} {arch : Archetype} {data : Map (EntityId × Symbol) Bytes}
    (hfits : ArchetypeFits index homes next id arch) (hhomeless : homes.get e = none)
    (hdata : ∀ key, data.get key =
      if key.1 = e then (contents key.2).or (arch.data.get key) else arch.data.get key)
    (hcontents : ∀ t, (contents t).isSome ↔ t ∈ arch.componentTypes) :
    ArchetypeFits index (homes.set e id) next id { arch with entities := arch.entities ++ [e], data } := by
  obtain ⟨hnonempty, hsorted, hid, hbelow, hindexed, hnodup, hmembers, hstored⟩ := hfits
  have habsent : e ∉ arch.entities := by
    rw [hmembers, hhomeless]
    exact Option.some_ne_none id ∘ Eq.symm
  refine ⟨hnonempty, hsorted, hid, hbelow, hindexed, ?_, fun member => ?_, fun member t => ?_⟩
  · apply List.nodup_append.mpr
    refine ⟨hnodup, List.nodup_singleton _, fun member hmember last hlast heq => ?_⟩
    rw [heq, List.mem_singleton.mp hlast] at hmember
    exact habsent hmember
  · rw [List.mem_append, hmembers, List.mem_singleton, Map.get_set]
    by_cases hmember : member = e <;> simp [hmember, hhomeless]
  · have hbefore := hstored member t
    rw [hdata, List.mem_append, List.mem_singleton]
    by_cases hmember : member = e
    · have hnodata : arch.data.get (e, t) = none := by
        rw [← Option.not_isSome_iff_eq_none, hstored]
        exact fun hin => habsent hin.1
      simp [hmember, hnodata, hcontents]
    · simpa [hmember] using hbefore

theorem archetypeFits_set {index : Map (List Symbol) ArchetypeId} {homes : Map EntityId ArchetypeId}
    {next id other : ArchetypeId} {arch : Archetype} (hfits : ArchetypeFits index homes next other arch)
    (hhomeless : homes.get e = none) (hother : other ≠ id) :
    ArchetypeFits index (homes.set e id) next other arch := by
  refine { hfits with members := fun member => ?_ }
  rw [hfits.members, Map.get_set]
  by_cases hmember : member = e
  · simp [hmember, hhomeless, hother.symm]
  · simp [hmember]

theorem wellFormed_enterArchetype (h : WellFormed world) (hhomeless : world.entityArchetype.get e = none)
    (hnonempty : types ≠ []) (hsorted : types.Pairwise (· < ·)) (hfill : Archetype.Fills e contents fill)
    (hcontents : ∀ t, (contents t).isSome ↔ t ∈ types) : WellFormed (world.enterArchetype e types fill) := by
  obtain ⟨next, id, target, data, hnext, htarget, htypes, heq, hdata⟩ := enterArchetype_eq h hfill
  have hwell : WellFormed next := hnext ▸ wellFormed_getOrCreateArchetype h hnonempty hsorted
  have hhome : next.entityArchetype.get e = none := by
    rw [hnext, entityArchetype_getOrCreateArchetype, hhomeless]
  rw [← htypes] at hcontents
  rw [heq]
  have hfits := archetypeFits_addEntity (hwell.archetypes id target htarget) hhome hdata hcontents
  apply wellFormed_replace hwell htarget hfits rfl
  · intro other hother arch hget
    exact archetypeFits_set (hwell.archetypes other arch hget) hhome hother
  · intro member other hmember
    rw [Map.get_set] at hmember
    split_ifs at hmember
    · exact Or.inl (Option.some.inj hmember).symm
    · exact Or.inr hmember

theorem getComponent_enterArchetype (h : WellFormed world) (hhomeless : world.entityArchetype.get e = none)
    (hnonempty : types ≠ []) (hsorted : types.Pairwise (· < ·)) (hfill : Archetype.Fills e contents fill)
    (other : EntityId) (t : Symbol) :
    (world.enterArchetype e types fill).getComponent other t =
      if other = e then contents t else world.getComponent other t := by
  obtain ⟨next, id, target, data, hnext, htarget, htypes, heq, hdata⟩ := enterArchetype_eq h hfill
  have hwell : WellFormed next := hnext ▸ wellFormed_getOrCreateArchetype h hnonempty hsorted
  have hhome : next.entityArchetype.get e = none := by
    rw [hnext, entityArchetype_getOrCreateArchetype, hhomeless]
  have hsame : next.getComponent other t = world.getComponent other t := by
    rw [getComponent_eq, getComponent_eq, hnext, archetypeOf_getOrCreateArchetype h]
  rw [heq, ← hsame]
  simp only [getComponent_eq, archetypeOf, Map.get_set]
  by_cases hother : other = e
  · have hnodata : target.data.get (e, t) = none := by
      rw [← Option.not_isSome_iff_eq_none, (hwell.archetypes id target htarget).stored,
        (hwell.archetypes id target htarget).members, hhome]
      simp
    simp [hother, hdata, hnodata]
  · simp only [hother, if_false]
    cases hother' : next.entityArchetype.get other with
    | none => rfl
    | some otherId =>
        simp only [Option.bind_some]
        split_ifs with hid
        · subst hid
          rw [htarget, Option.bind_some, Option.bind_some, hdata, if_neg hother]
        · rfl

end Enter

end Cougr.ArchetypeWorld
