import Cougr.StorageWorld.Sessions

namespace Cougr

open StorageWorld Transition

-- Persistent storage and the world of the session that runs on it.
structure Host where
  env : Storage
  world : StorageWorld

namespace Host

inductive Call where
  -- a new session; what the last one has not flushed is lost
  | loadMetadata
  | op (op : Op)
  | flush
  deriving DecidableEq

def step (host : Host) : Call → Host
  | .loadMetadata => { host with world := StorageWorld.loadMetadata host.env }
  | .op op => { host with world := host.world.step host.env op }
  | .flush =>
    let (world, env) := host.world.flush host.env
    { env, world }

def empty : Host := ⟨KeyStore.empty, StorageWorld.loadMetadata KeyStore.empty⟩

-- How sessions are meant to use a world.
def Disciplined (host : Host) : Call → Prop
  | .op (.loadEntity entityId) => entityId ∉ host.world.dirty.despawned
  | .op (.addComponent entityId _ _) => host.world.isLoaded entityId
  | .op (.removeComponent entityId _) => host.world.isLoaded entityId
  | .op (.despawnEntity entityId) => host.world.isLoaded entityId
  | .op .spawnEntity => True
  | .loadMetadata => True
  | .flush => True

instance (host : Host) : (call : Call) → Decidable (Disciplined host call)
  | .op (.loadEntity _) => inferInstanceAs (Decidable (_ ∉ _))
  | .op (.addComponent _ _ _) => inferInstanceAs (Decidable (_ = true))
  | .op (.removeComponent _ _) => inferInstanceAs (Decidable (_ = true))
  | .op (.despawnEntity _) => inferInstanceAs (Decidable (_ = true))
  | .op .spawnEntity => inferInstanceAs (Decidable True)
  | .loadMetadata => inferInstanceAs (Decidable True)
  | .flush => inferInstanceAs (Decidable True)

structure Sound (host : Host) : Prop where
  storage : StorageFits host.env
  session : Coherent host.env host.world

theorem sound_empty : Sound empty := ⟨⟨nofun, nofun⟩, coherent_loadMetadata _⟩

theorem sound_step (host : Host) (call : Call) (h : Sound host) (hcall : Disciplined host call) :
    Sound (host.step call) := by
  obtain ⟨hstorage, hsession⟩ := h
  cases call with
  | loadMetadata => exact ⟨hstorage, coherent_loadMetadata host.env⟩
  | flush => exact ⟨storageFits_flush hstorage hsession, coherent_flush hsession⟩
  | op op =>
      refine ⟨hstorage, ?_⟩
      cases op with
      | loadEntity entityId => exact coherent_loadEntity hstorage hsession hcall
      | spawnEntity => exact coherent_spawnEntity hsession
      | addComponent entityId componentType data =>
          exact coherent_addComponent hsession hcall componentType data
      | removeComponent entityId componentType =>
          exact coherent_removeComponent hsession entityId componentType
      | despawnEntity entityId => exact coherent_despawnEntity hsession hcall

theorem sound_run {calls : List Call} (hcalls : StepsMeet step Disciplined empty calls) :
    Sound (run step empty calls) :=
  run_invariant Sound sound_step sound_empty calls hcalls

-- The entity is in storage no more and its id will not be handed out again.
structure Gone (host : Host) (e : EntityId) : Prop where
  notStored : storedTypes host.env e = none
  notLoaded : host.world.typesOf e = none
  below : e < host.world.metadata.nextEntityId
  storedBelow : e < (storedMetadata host.env).nextEntityId

theorem gone_step (host : Host) (call : Call) {e : EntityId} (hsound : Sound host)
    (hcall : Disciplined host call) (h : Gone host e) : Gone (host.step call) e := by
  obtain ⟨hstored, hloaded, hbelow, hstoredBelow⟩ := h
  have hother : ∀ entityId, host.world.isLoaded entityId → e ≠ entityId := by
    rintro entityId hentity rfl
    rw [isLoaded_eq, hloaded] at hentity
    cases hentity
  cases call with
  | loadMetadata => exact ⟨hstored, rfl, hstoredBelow, hstoredBelow⟩
  | flush =>
      have hmeta := storedMetadata_flush hsound.session
      refine ⟨?_, ?_, ?_, ?_⟩
      · simp only [step]
        rw [storedTypes_flush, hloaded, hstored]
        split_ifs <;> rfl
      · simpa [step] using hloaded
      · simpa [step, flush_world] using hbelow
      · simpa [step, hmeta] using hbelow
  | op op =>
      cases op with
      | loadEntity entityId =>
          refine ⟨hstored, ?_, by simpa [step, StorageWorld.step] using hbelow, hstoredBelow⟩
          simp only [step, StorageWorld.step]
          rw [typesOf_loadEntity, hloaded]
          by_cases heq : e = entityId
          · rw [if_pos heq, ← heq, hstored]
            rfl
          · rw [if_neg heq]
            rfl
      | spawnEntity =>
          refine ⟨hstored, ?_, Nat.lt_succ_of_lt hbelow, hstoredBelow⟩
          simp only [step, StorageWorld.step]
          rw [typesOf_spawnEntity, hloaded, if_neg (Nat.ne_of_lt hbelow)]
          rfl
      | addComponent entityId componentType data =>
          refine ⟨hstored, ?_, hbelow, hstoredBelow⟩
          simp only [step, StorageWorld.step]
          rw [typesOf_addComponent, if_neg (hother entityId hcall), hloaded]
      | removeComponent entityId componentType =>
          refine ⟨hstored, ?_, ?_, hstoredBelow⟩
          · simp only [step, StorageWorld.step]
            rw [typesOf_removeComponent, if_neg fun heq => hother entityId hcall heq.1, hloaded]
          · simp only [step, StorageWorld.step, nextEntityId_removeComponent]
            exact hbelow
      | despawnEntity entityId =>
          refine ⟨hstored, ?_, hbelow, hstoredBelow⟩
          simp only [step, StorageWorld.step]
          rw [typesOf_despawnEntity, hloaded]
          split_ifs <;> rfl

-- Gone, or to be gone with the next flush.
def Leaving (host : Host) (e : EntityId) : Prop := e ∈ host.world.dirty.despawned ∨ Gone host e

theorem gone_flush {host : Host} {e : EntityId} (hsound : Sound host) (h : Leaving host e) :
    Gone (host.step .flush) e := by
  rcases h with hdespawned | hgone
  · obtain ⟨hloaded, hbelow⟩ := (hsound.session.entities e).despawned hdespawned
    have hmeta := storedMetadata_flush hsound.session
    refine ⟨?_, by simpa [step] using hloaded, by simpa [step, flush_world] using hbelow,
      by simpa [step, hmeta] using hbelow⟩
    simp only [step]
    rw [storedTypes_flush, if_pos hdespawned]
  · exact gone_step host .flush hsound trivial hgone

theorem leaving_step (host : Host) (call : Call) {e : EntityId} (hsound : Sound host)
    (hcall : Disciplined host call) (hsame : call ≠ .loadMetadata) (h : Leaving host e) :
    Leaving (host.step call) e := by
  cases call with
  | loadMetadata => exact absurd rfl hsame
  | flush => exact Or.inr (gone_flush hsound h)
  | op op =>
      rcases h with hdespawned | hgone
      · exact Or.inl (despawned_step host.env op hdespawned)
      · exact Or.inr (gone_step host (.op op) hsound hcall hgone)

theorem leaving_middle {start : Host} {e : EntityId} (hsound : Sound start) (h : Leaving start e)
    {calls : List Call} (hsame : .loadMetadata ∉ calls) (hcalls : StepsMeet step Disciplined start calls) :
    Sound (run step start calls) ∧ Leaving (run step start calls) e := by
  induction calls generalizing start with
  | nil => exact ⟨hsound, h⟩
  | cons call calls ih =>
      rw [List.mem_cons, not_or] at hsame
      exact ih (sound_step start call hsound hcalls.1)
        (leaving_step start call hsound hcalls.1 (Ne.symm hsame.1) h) hsame.2 hcalls.2

theorem gone_rest {start : Host} {e : EntityId} (hsound : Sound start) (h : Gone start e)
    {calls : List Call} (hcalls : StepsMeet step Disciplined start calls) :
    Gone (run step start calls) e :=
  (run_invariant (fun host => Sound host ∧ Gone host e)
    (fun host call h hcall => ⟨sound_step host call h.1 hcall, gone_step host call h.1 hcall h.2⟩)
    ⟨hsound, h⟩ calls hcalls).2

-- Once a session that despawned the entity has flushed, every later run finds it gone.
theorem gone_run {start : Host} {e : EntityId} (hsound : Sound start) {middle rest : List Call}
    (hmiddle : .loadMetadata ∉ middle)
    (hcalls : StepsMeet step Disciplined start (.op (.despawnEntity e) :: middle ++ .flush :: rest)) :
    Gone (run step start (.op (.despawnEntity e) :: middle ++ .flush :: rest)) e := by
  obtain ⟨hsession, hflushed⟩ := (stepsMeet_append ..).mp hcalls
  obtain ⟨hdespawn, hkept⟩ := hsession
  have hleaving : Leaving (start.step (.op (.despawnEntity e))) e :=
    Or.inl ((mem_despawned_despawnEntity ..).mpr (Or.inr rfl))
  have hsound' := sound_step start _ hsound hdespawn
  obtain ⟨hbefore, hstill⟩ := leaving_middle hsound' hleaving hmiddle hkept
  rw [run_append]
  exact gone_rest (sound_step _ .flush hbefore trivial) (gone_flush hbefore hstill) hflushed.2

-- The call changes the entity in memory.
def Touches (host : Host) (call : Call) (e : EntityId) : Prop :=
  match call with
  | .op .spawnEntity => host.world.metadata.nextEntityId = e
  | .op (.addComponent entityId _ _) => entityId = e
  | .op (.removeComponent entityId _) => entityId = e
  | .op (.despawnEntity entityId) => entityId = e
  | .op (.loadEntity _) => False
  | .loadMetadata => False
  | .flush => False

structure Clean (world : StorageWorld) (e : EntityId) : Prop where
  types : e ∉ world.dirty.dirtyEntities
  data : ∀ t, (e, t) ∉ world.dirty.dirtyComponents
  present : e ∉ world.dirty.despawned

theorem clean_new {world : StorageWorld} (h : world.dirty = .new) (e : EntityId) : Clean world e := by
  constructor <;> rw [h] <;> exact nofun

theorem clean_op {host : Host} {op : Op} {e : EntityId} (huntouched : ¬Touches host (.op op) e)
    (h : Clean host.world e) : Clean (host.world.step host.env op) e := by
  obtain ⟨htypes, hdata, hpresent⟩ := h
  cases op with
  | loadEntity entityId => constructor <;> simpa [StorageWorld.step]
  | spawnEntity =>
      refine ⟨fun hmem => ?_, hdata, hpresent⟩
      rcases (mem_dirtyEntities_spawnEntity ..).mp hmem with hbefore | hnew
      · exact htypes hbefore
      · exact huntouched hnew.symm
  | addComponent entityId componentType data =>
      refine ⟨fun hmem => ?_, fun t hmem => ?_, hpresent⟩
      · rcases (mem_dirtyEntities_addComponent ..).mp hmem with hbefore | hnew
        · exact htypes hbefore
        · exact huntouched hnew.symm
      · rcases (mem_dirtyComponents_addComponent ..).mp hmem with hbefore | hnew
        · exact hdata t hbefore
        · exact huntouched (Prod.ext_iff.mp hnew).1.symm
  | removeComponent entityId componentType =>
      refine ⟨fun hmem => ?_, fun t hmem => ?_, by simpa [StorageWorld.step]⟩
      · rcases (mem_dirtyEntities_removeComponent ..).mp hmem with hbefore | ⟨hnew, _⟩
        · exact htypes hbefore
        · exact huntouched hnew.symm
      · rcases (mem_dirtyComponents_removeComponent ..).mp hmem with hbefore | ⟨hnew, _⟩
        · exact hdata t hbefore
        · exact huntouched (Prod.ext_iff.mp hnew).1.symm
  | despawnEntity entityId =>
      refine ⟨htypes, hdata, fun hmem => ?_⟩
      rcases (mem_despawned_despawnEntity ..).mp hmem with hbefore | hnew
      · exact hpresent hbefore
      · exact huntouched hnew.symm

-- Both storages hold the same entries of the entity.
structure SameEntries (env env' : Storage) (e : EntityId) : Prop where
  types : storedTypes env' e = storedTypes env e
  data : ∀ t, storedData env' e t = storedData env e t

theorem untouched_step (host : Host) (call : Call) {e : EntityId} (huntouched : ¬Touches host call e)
    (h : Clean host.world e) : Clean (host.step call).world e ∧ SameEntries host.env (host.step call).env e := by
  cases call with
  | loadMetadata => exact ⟨clean_new rfl e, rfl, fun _ => rfl⟩
  | op op => exact ⟨clean_op huntouched h, rfl, fun _ => rfl⟩
  | flush =>
      refine ⟨clean_new (by simp [step, flush_world]) e, ?_, fun t => ?_⟩
      · simp only [step]
        rw [storedTypes_flush, if_neg h.present, if_neg h.types]
      · simp only [step]
        rw [storedData_flush _ _ h.present, if_neg (h.data t)]

theorem untouched_run {start : Host} {calls : List Call} {e : EntityId} (h : Clean start.world e)
    (huntouched : StepsMeet step (fun host call => ¬Touches host call e) start calls) :
    Clean (run step start calls).world e ∧ SameEntries start.env (run step start calls).env e :=
  run_invariant (fun host => Clean host.world e ∧ SameEntries start.env host.env e)
    (fun host call hhost hcall => by
      obtain ⟨hclean, hsame⟩ := untouched_step host call hcall hhost.1
      exact ⟨hclean, hsame.types.trans hhost.2.types, fun t => (hsame.data t).trans (hhost.2.data t)⟩)
    ⟨h, rfl, fun _ => rfl⟩ calls huntouched

-- A fresh session finds of the entity what the session holds.
structure ReloadAgrees (host : Host) (e : EntityId) : Prop where
  loads : (reload host.env e).1 = .ok ()
  getComponent : ∀ t, (reload host.env e).2.getComponent e t = host.world.getComponent e t
  hasComponent : ∀ t, (reload host.env e).2.hasComponent e t = host.world.hasComponent e t

theorem reloadAgrees_flush {host : Host} (hsound : Sound host) {e : EntityId}
    (hloaded : host.world.isLoaded e) : ReloadAgrees (host.step .flush) e := by
  obtain ⟨types, htypes⟩ := typesOf_of_isLoaded hloaded
  have hstored := storedTypes_flush_of_loaded hsound.session htypes
  have hget : ∀ t, (reload (host.step .flush).env e).2.getComponent e t =
      (host.step .flush).world.getComponent e t := by
    intro t
    simp only [step]
    rw [getComponent_reload, getComponent_flush, storedComponent, hstored, Option.bind_some]
    have hlisted := (hsound.session.entities e).listed types htypes t
    cases hdata : host.world.getComponent e t with
    | none =>
        rw [if_neg]
        simp [hlisted, hdata]
    | some data =>
        rw [if_pos (hlisted.mpr (by rw [hdata]; rfl))]
        exact storedData_flush_of_loaded hsound.session hdata
  refine ⟨?_, hget, fun t => ?_⟩
  · simp only [step]
    rw [reload_result, hstored]
    rfl
  · rw [hasComponent_eq, hasComponent_eq, hget]

-- After every flush of a disciplined run, storage is what the sessions have made it.
theorem flush_durable (calls : List Call) (hcalls : StepsMeet step Disciplined empty (calls ++ [Call.flush])) :
    let host := run step empty (calls ++ [Call.flush])
    (StorageWorld.loadMetadata host.env).metadata = host.world.metadata ∧
    (∀ e, host.world.isLoaded e → ReloadAgrees host e) ∧
    (∀ (e : EntityId) (past middle rest : List Call),
      calls ++ [Call.flush] = past ++ Call.op (.despawnEntity e) :: middle ++ Call.flush :: rest →
      Call.loadMetadata ∉ middle → (reload host.env e).1 = .error .EntityNotFound) ∧
    ∀ (e : EntityId) (past session : List Call), calls = past ++ Call.loadMetadata :: session →
      StepsMeet step (fun host call => ¬Touches host call e)
        (run step empty (past ++ [Call.loadMetadata])) session →
      SameEntries (run step empty past).env host.env e := by
  intro host
  obtain ⟨hbefore, -, -⟩ := (stepsMeet_append ..).mp hcalls
  have hsound := sound_run hbefore
  have hhost : host = (run step empty calls).step .flush := run_concat ..
  refine ⟨?_, ?_, ?_, ?_⟩
  · have hmetadata : ((run step empty calls).step .flush).world.metadata =
      (run step empty calls).world.metadata := by
      simp [step, flush_world]
    rw [hhost, hmetadata]
    exact storedMetadata_flush hsound.session
  · intro e hloaded
    rw [hhost] at hloaded ⊢
    apply reloadAgrees_flush hsound
    rw [isLoaded_eq] at hloaded ⊢
    simpa [step] using hloaded
  · intro e past middle rest hsplit hmiddle
    have hgone : Gone host e := by
      have hsession := hcalls
      rw [hsplit, List.append_assoc, stepsMeet_append] at hsession
      have hrun : host = run step (run step empty past)
          (.op (.despawnEntity e) :: middle ++ .flush :: rest) := by
        rw [← run_append, ← List.append_assoc, ← hsplit]
      rw [hrun]
      exact gone_run (sound_run hsession.1) hmiddle hsession.2
    rw [reload_result, hgone.notStored]
    rfl
  · intro e past session hsplit huntouched
    have hclean : Clean (run step empty (past ++ [Call.loadMetadata])).world e := by
      rw [run_concat]
      exact clean_new rfl e
    have hrun : host = run step (run step empty (past ++ [Call.loadMetadata])) (session ++ [Call.flush]) := by
      rw [← run_append, List.append_assoc, List.singleton_append, ← List.cons_append, ← List.append_assoc,
        ← hsplit]
    have hflush : ∀ host : Host, ¬Touches host .flush e := fun _ => id
    have hsame := (untouched_run hclean ((stepsMeet_concat ..).mpr ⟨huntouched, hflush _⟩)).2
    rw [← hrun, run_concat] at hsame
    exact hsame

def pos : Symbol := symbolShort "pos"

-- Two entities are stored; the next session loads both and despawns the second.
def twoSessions : List Call :=
  [.op .spawnEntity, .op (.addComponent 1 pos [1]), .op .spawnEntity,
    .op (.addComponent 2 pos [2]), .flush, .loadMetadata, .op (.loadEntity 1),
    .op (.loadEntity 2), .op (.despawnEntity 2)]

theorem two_sessions_durable :
    ReloadAgrees (run step empty (twoSessions ++ [Call.flush])) 1 ∧
      (reload (run step empty (twoSessions ++ [Call.flush])).env 2).1 = .error .EntityNotFound :=
  have h := flush_durable twoSessions (by decide)
  ⟨h.2.1 1 (by decide), h.2.2.1 2 (twoSessions.take 8) [] [] rfl (by decide)⟩

end Host

end Cougr
