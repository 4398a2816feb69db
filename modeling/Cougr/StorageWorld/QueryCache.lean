import Cougr.StorageWorld.Conversion
import Cougr.StorageWorld.Durability
import Cougr.SimpleWorld.QueryCache
import Cougr.SimpleWorld.Queries

namespace Cougr

namespace StorageWorld

open KeyedList

section Shown

variable (self : StorageWorld)

theorem shownList_push {world' : StorageWorld} {le : LoadedEntity}
    (h : world'.loadedEntities = self.loadedEntities ++ [le]) (e : EntityId) :
    world'.shownList e = if e = le.entityId then some le.componentTypes else self.shownList e := by
  rw [shownList, shownList, h, List.reverse_append, List.reverse_singleton, List.singleton_append, lookup_cons]
  by_cases he : e = le.entityId
  · simp [he]
  · simp [he, Ne.symm he]

theorem shownTypes_spawnEntity (e : EntityId) :
    self.spawnEntity.2.shownTypes e =
      if e = self.metadata.nextEntityId then [] else self.shownTypes e := by
  rw [shownTypes, shownList_push self rfl]
  split_ifs <;> rfl

theorem shownTypes_loadEntity {env : Storage} {entityId : EntityId} (hloaded : ¬self.isLoaded entityId)
    (e : EntityId) :
    (self.loadEntity env entityId).2.shownTypes e =
      if e = entityId then (storedTypes env entityId).getD (self.shownTypes e) else self.shownTypes e := by
  have hentities := self.loadedEntities_loadEntity env entityId
  rw [if_neg hloaded] at hentities
  cases hstored : storedTypes env entityId with
  | none =>
      rw [hstored, Option.map_none, Option.toList_none, List.append_nil] at hentities
      rw [shownTypes, shownList, hentities]
      split_ifs <;> rfl
  | some types =>
      rw [hstored] at hentities
      rw [shownTypes, shownList_push self hentities]
      split_ifs <;> rfl

-- An entity that is not loaded is not shown.
theorem shownTypes_of_not_isLoaded {entityId : EntityId} (hloaded : ¬self.isLoaded entityId) :
    self.shownTypes entityId = [] := by
  have hnone : lookup LoadedEntity.entityId entityId self.loadedEntities.reverse = none := by
    rw [lookup_eq_none_iff]
    simpa [isLoaded] using hloaded
  rw [shownTypes, shownList, hnone]
  rfl

theorem answer_congr {first second : StorageWorld} (h : ∀ e, first.shownTypes e = second.shownTypes e)
    (t : Symbol) :
    first.toSimpleWorld.getEntitiesWithComponent t = second.toSimpleWorld.getEntitiesWithComponent t := by
  rw [SimpleWorld.getEntitiesWithComponent_eq_iff]
  intro e
  rw [types_toSimpleWorld, types_toSimpleWorld, h]

end Shown

end StorageWorld

namespace Host

open StorageWorld Transition

-- What can happen to one world of a session.
inductive Turn where
  | op (op : Op)
  | flush

def turn (host : Host) : Turn → Host
  | .op op => host.step (.op op)
  | .flush => host.step .flush

-- The steps that change the type lists of the converted world without a new version: a load that
-- brings a list in, and a spawn whose empty list hides that of an entity with the same id.
def KeepsShown (host : Host) : Turn → Prop
  | .op (.loadEntity entityId) =>
    host.world.isLoaded entityId ∨ (storedTypes host.env entityId).getD [] = []
  | .op .spawnEntity => host.world.shownTypes host.world.metadata.nextEntityId = []
  | _ => True

def version (host : Host) : Nat := host.world.toSimpleWorld.version

def answer (t : Symbol) (host : Host) : List EntityId := host.world.toSimpleWorld.getEntitiesWithComponent t

theorem version_eq (host : Host) : host.version = host.world.metadata.version := rfl

-- A turn either moves the version on or leaves it and, if it keeps what is shown, the lists.
theorem turn_cases (host : Host) (input : Turn) :
    (host.turn input).version = host.version + 1 ∨
      (host.turn input).version = host.version ∧
        (KeepsShown host input → ∀ e, (host.turn input).world.shownTypes e = host.world.shownTypes e) := by
  cases input with
  | flush =>
      have hworld : (host.turn .flush).world = { host.world with dirty := .new } :=
        host.world.flush_world host.env
      refine Or.inr ⟨?_, fun _ e => ?_⟩
      · rw [version_eq, version_eq, hworld]
      · rw [hworld]
        rfl
  | op op =>
      cases op with
      | loadEntity entityId =>
          refine Or.inr ⟨?_, fun hkeeps e => ?_⟩
          · rw [version_eq, version_eq, turn, step, StorageWorld.step, metadata_loadEntity]
          · rw [turn, step, StorageWorld.step]
            by_cases hloaded : host.world.isLoaded entityId
            · rw [loadEntity, if_pos hloaded]
            · rw [shownTypes_loadEntity _ hloaded]
              split_ifs with he
              · have hempty := hkeeps.resolve_left hloaded
                rw [he, shownTypes_of_not_isLoaded _ hloaded, hempty]
              · rfl
      | spawnEntity =>
          refine Or.inr ⟨rfl, fun hkeeps e => ?_⟩
          rw [turn, step, StorageWorld.step, shownTypes_spawnEntity]
          split_ifs with he
          · rw [he]
            exact hkeeps.symm
          · rfl
      | addComponent entityId componentType data => exact Or.inl rfl
      | removeComponent entityId componentType =>
          rw [version_eq, version_eq, turn, step, StorageWorld.step]
          by_cases hthere : (host.world.getComponent entityId componentType).isSome
          · rw [host.world.removeComponent_of_isSome hthere]
            exact Or.inl rfl
          · rw [host.world.removeComponent_of_none (by simpa using hthere)]
            exact Or.inr ⟨rfl, fun _ _ => rfl⟩
      | despawnEntity entityId => exact Or.inl rfl

theorem versioned (t : Symbol) : VersionedCache.Versioned turn KeepsShown version (answer t) := by
  constructor
  · intro host input _
    rcases host.turn_cases input with hnew | ⟨hsame, _⟩ <;> omega
  · intro host input hkeeps hversion
    rcases host.turn_cases input with hnew | ⟨_, hshown⟩
    · omega
    · exact answer_congr (hshown hkeeps) t

open VersionedCache

-- A cache of its own next to the world, executed on what the world converts to.
def heldAfter (start : Host) (t : Symbol) (calls : List (VersionedCache.Call Turn)) : Host × SimpleQueryCache :=
  run (handle turn (fun cache host => cache.execute host.world.toSimpleWorld) SimpleQueryCache.invalidate)
    (start, SimpleQueryCache.new t) calls

-- Converted worlds of one version show the same entities, and a cache answers for each what a query would.
structure VersionTells (start : Host) (turns : List Turn) : Prop where
  answers : ∀ first second, first <+: turns → second <+: turns →
    (run turn start first).version = (run turn start second).version →
    ∀ t, (run turn start first).answer t = (run turn start second).answer t
  cached : ∀ t calls, VersionedCache.steps calls <+: turns →
    ((heldAfter start t calls).2.execute (heldAfter start t calls).1.world.toSimpleWorld).1 =
      (heldAfter start t calls).1.answer t

variable {start : Host} {turns : List Turn}

-- Between two moments of one version the run has not changed the answer.
theorem answer_eq_of_extends (hkeeps : StepsMeet turn KeepsShown start turns) {first second : List Turn}
    (hfirst : first <+: second) (hsecond : second <+: turns)
    (hversion : (run turn start first).version = (run turn start second).version) (t : Symbol) :
    (run turn start first).answer t = (run turn start second).answer t := by
  obtain ⟨middle, rfl⟩ := hfirst
  obtain ⟨rest, rfl⟩ := hsecond
  have hmiddle := ((stepsMeet_append ..).mp ((stepsMeet_append ..).mp hkeeps).1).2
  rw [run_append] at hversion ⊢
  exact ((versioned t).kept_run hmiddle hversion.symm).symm

theorem versionTells_of_keepsShown (hshown : ∀ e, start.world.shownTypes e = [])
    (hkeeps : StepsMeet turn KeepsShown start turns) : VersionTells start turns where
  answers := by
    intro first second hfirst hsecond hversion t
    rcases List.prefix_or_prefix_of_prefix hfirst hsecond with hle | hle
    · exact answer_eq_of_extends hkeeps hle hsecond hversion t
    · exact (answer_eq_of_extends hkeeps hle hfirst hversion.symm t).symm
  cached := by
    intro t calls hcalls
    have hlawful := SimpleQueryCache.lawful (fun host : Host => host.world.toSimpleWorld) t
    have hfresh : Fresh version (answer t) SimpleQueryCache.memory (SimpleQueryCache.new t) start := by
      intro date value hmemory
      obtain ⟨rfl, rfl⟩ := Prod.mk.inj (Option.some.inj hmemory)
      refine ⟨Nat.zero_le _, fun _ => ?_⟩
      symm
      apply List.eq_nil_iff_forall_not_mem.mpr
      intro e he
      rw [answer, SimpleWorld.mem_getEntitiesWithComponent_iff_listed, types_toSimpleWorld, hshown] at he
      cases he
    apply hlawful.execute_run (versioned t) rfl hfresh calls
    obtain ⟨rest, rfl⟩ := hcalls
    rw [stepsMeet_admitted]
    exact ((stepsMeet_append ..).mp hkeeps).1

-- A step that shows other lists does so under the old version.
theorem keepsShown_of_answers {host : Host} {input : Turn}
    (hanswers : (host.turn input).version = host.version → ∀ t, (host.turn input).answer t = host.answer t) :
    KeepsShown host input := by
  have hlists : (host.turn input).version = host.version →
      ∀ e t, t ∈ (host.turn input).world.shownTypes e ↔ t ∈ host.world.shownTypes e := by
    intro hversion e t
    have h := (SimpleWorld.getEntitiesWithComponent_eq_iff t).mp (hanswers hversion t) e
    rwa [types_toSimpleWorld, types_toSimpleWorld] at h
  cases input with
  | flush => trivial
  | op op =>
      cases op with
      | loadEntity entityId =>
          by_cases hloaded : host.world.isLoaded entityId
          · exact Or.inl hloaded
          · refine Or.inr (List.eq_nil_iff_forall_not_mem.mpr fun t ht => ?_)
            have hversion : (host.turn (.op (.loadEntity entityId))).version = host.version := by
              rw [version_eq, version_eq, turn, step, StorageWorld.step, metadata_loadEntity]
            have hlist := hlists hversion entityId t
            rw [turn, step, StorageWorld.step, shownTypes_loadEntity _ hloaded, if_pos rfl,
              shownTypes_of_not_isLoaded _ hloaded] at hlist
            exact absurd (hlist.mp ht) List.not_mem_nil
      | spawnEntity =>
          refine List.eq_nil_iff_forall_not_mem.mpr fun t ht => ?_
          have hlist := hlists rfl host.world.metadata.nextEntityId t
          rw [turn, step, StorageWorld.step, shownTypes_spawnEntity, if_pos rfl] at hlist
          exact absurd (hlist.mpr ht) List.not_mem_nil
      | addComponent entityId componentType data => trivial
      | removeComponent entityId componentType => trivial
      | despawnEntity entityId => trivial

-- Loading changes what a world shows, and the version does not tell.
theorem versionTells_iff_keepsShown (env : Storage) (turns : List Turn) :
    VersionTells ⟨env, StorageWorld.loadMetadata env⟩ turns ↔
      StepsMeet turn KeepsShown ⟨env, StorageWorld.loadMetadata env⟩ turns := by
  constructor
  · intro htells
    rw [stepsMeet_iff_forall_cut]
    rintro past input rest rfl
    apply keepsShown_of_answers
    rw [← run_concat turn]
    exact fun hversion t => htells.answers (past ++ [input]) past ⟨rest, by simp⟩ ⟨input :: rest, rfl⟩ hversion t
  · exact versionTells_of_keepsShown fun _ => rfl

-- A session has stored an entity with one component; the next one loads it between two queries.
def storeOfOne : Storage := (run step empty [.op .spawnEntity, .op (.addComponent 1 pos [1]), .flush]).env

theorem load_not_versioned : ¬VersionTells ⟨storeOfOne, StorageWorld.loadMetadata storeOfOne⟩
    [.op (.loadEntity 1)] := by
  intro htells
  have hanswers := htells.answers [] [.op (.loadEntity 1)] (List.nil_prefix ..) (List.prefix_refl _) rfl pos
  have hlists := (SimpleWorld.getEntitiesWithComponent_eq_iff pos).mp hanswers 1
  rw [types_toSimpleWorld, types_toSimpleWorld] at hlists
  revert hlists
  decide

end Host

end Cougr
