import Cougr.Zk.Systems.Sweep

namespace Cougr.Zk

open SimpleWorld

-- The run takes the component away where it should and leaves every other one; a second run changes nothing.
structure RemovesExactly (system : SimpleWorld → Option SimpleWorld) (t : Symbol) (gone : EntityId → Prop)
    (world swept : SimpleWorld) : Prop where
  runs : system world = some swept
  removed : ∀ e, gone e → swept.getComponent e t = none
  kept : ∀ e u, ¬(u = t ∧ gone e) → swept.getComponent e u = world.getComponent e u
  again : ∃ again, system swept = some again ∧ ∀ e u, again.getComponent e u = swept.getComponent e u

-- The commitment of the entity has not been revealed, and the deadline is over.
def DeadlinePassed (now : UInt64) (world : SimpleWorld) (e : EntityId) : Prop :=
  ∃ commitment deadline,
    world.getComponent e commitRevealType = some (encodeCommitReveal commitment deadline false) ∧ deadline < now

-- The marker of the entity is older than allowed.
def MarkerOutdated (now maxAge : UInt64) (world : SimpleWorld) (e : EntityId) : Prop :=
  ∃ verifiedAt, world.getComponent e verifiedMarkerType = some (encodeVerifiedMarker verifiedAt) ∧
    verifiedAt ≤ now ∧ maxAge.toNat < now.toNat - verifiedAt.toNat

-- The components of the two types come from the two encoders.
structure Encoded (world : SimpleWorld) : Prop where
  commits : ∀ e data, world.getComponent e commitRevealType = some data →
    ∃ commitment deadline revealed, data = encodeCommitReveal commitment deadline revealed
  markers : ∀ e data, world.getComponent e verifiedMarkerType = some data →
    ∃ verifiedAt, data = encodeVerifiedMarker verifiedAt

section Expiry

variable {kind : Symbol → ComponentStorage} {world : SimpleWorld} {t : Symbol} {expired : Bytes → Option Bool}

theorem Indexed.getComponent_remove_self (h : Indexed kind world) (e : EntityId) (t : Symbol) :
    (world.removeComponent e t).2.getComponent e t = none := by
  have hstep := h.getComponent_step (.removeComponent e t) trivial e t
  simpa [step, Contents.step] using hstep

-- An indexed world lists every component, so the walk misses none; what it has left is not expired.
theorem removesExactly_sweep (h : Indexed kind world) (hreadable : ∀ e, Readable t expired world e)
    {gone : EntityId → Prop} (hgone : ∀ e, gone e ↔ Expired t expired world e) :
    ∃ swept, RemovesExactly (sweep t expired) t gone world swept := by
  obtain ⟨swept, hswept, hsweeps⟩ := sweep_spec fun e _ => hreadable e
  have hlisted : ∀ e, Expired t expired world e → e ∈ world.getEntitiesWithComponent t := by
    rintro e ⟨data, hdata, _⟩
    rw [mem_getEntitiesWithComponent h, hasComponent_eq_isSome, hdata]
    rfl
  have hremoved : ∀ e, Expired t expired world e → swept.getComponent e t = none := by
    intro e he
    rw [(hsweeps.removed e (hlisted e he) he).getComponent_eq]
    exact Indexed.getComponent_remove_self h e t
  have hkept : ∀ e u, ¬(u = t ∧ Expired t expired world e) → swept.getComponent e u = world.getComponent e u :=
    fun e u hne => (hsweeps.kept e u fun hall => hne ⟨hall.1, hall.2.2⟩).getComponent_eq
  -- whoever still has the component has the old data, which can be read and are not expired
  have hleft : ∀ e data, swept.getComponent e t = some data →
      world.getComponent e t = some data ∧ ¬Expired t expired world e := by
    intro e data hdata
    have hfresh : ¬Expired t expired world e := by
      intro he
      rw [hremoved e he] at hdata
      cases hdata
    rw [hkept e t fun hall => hfresh hall.2] at hdata
    exact ⟨hdata, hfresh⟩
  obtain ⟨again, hagain, hsame⟩ : ∃ again, sweep t expired swept = some again ∧
      Sweeps t expired (swept.getEntitiesWithComponent t) swept again :=
    sweep_spec fun e _ data hdata => hreadable e data (hleft e data hdata).1
  refine ⟨swept, hswept, fun e he => hremoved e ((hgone e).mp he), ?_, again, hagain, ?_⟩
  · exact fun e u hne => hkept e u fun hall => hne ⟨hall.1, (hgone e).mpr hall.2⟩
  · intro e u
    refine (hsame.kept e u ?_).getComponent_eq
    rintro ⟨_, _, data, hdata, hexpired⟩
    obtain ⟨hold, hfresh⟩ := hleft e data hdata
    exact hfresh ⟨data, hold, hexpired⟩

theorem Encoded.readable_commit (h : Encoded world) (now : UInt64) (e : EntityId) :
    Readable commitRevealType (commitExpired now) world e := by
  intro data hdata
  obtain ⟨commitment, deadline, revealed, rfl⟩ := h.commits e data hdata
  rw [commitExpired_encode]
  rfl

theorem Encoded.readable_marker (h : Encoded world) (now maxAge : UInt64) (e : EntityId) :
    Readable verifiedMarkerType (markerExpired now maxAge) world e := by
  intro data hdata
  obtain ⟨verifiedAt, rfl⟩ := h.markers e data hdata
  rw [markerExpired_encode]
  rfl

theorem Encoded.deadlinePassed_iff (h : Encoded world) (now : UInt64) (e : EntityId) :
    DeadlinePassed now world e ↔ Expired commitRevealType (commitExpired now) world e := by
  constructor
  · rintro ⟨commitment, deadline, hdata, hpassed⟩
    refine ⟨_, hdata, ?_⟩
    rw [commitExpired_encode]
    simpa using hpassed
  · rintro ⟨data, hdata, hexpired⟩
    obtain ⟨commitment, deadline, revealed, rfl⟩ := h.commits e data hdata
    rw [commitExpired_encode] at hexpired
    cases revealed with
    | true => simp at hexpired
    | false => exact ⟨commitment, deadline, hdata, by simpa using hexpired⟩

theorem Encoded.markerOutdated_iff (h : Encoded world) (now maxAge : UInt64) (e : EntityId) :
    MarkerOutdated now maxAge world e ↔ Expired verifiedMarkerType (markerExpired now maxAge) world e := by
  constructor
  · rintro ⟨verifiedAt, hdata, _, hage⟩
    refine ⟨_, hdata, ?_⟩
    rw [markerExpired_encode]
    simpa using hage
  · rintro ⟨data, hdata, hexpired⟩
    obtain ⟨verifiedAt, rfl⟩ := h.markers e data hdata
    rw [markerExpired_encode] at hexpired
    have hage : maxAge.toNat < now.toNat - verifiedAt.toNat := by simpa using hexpired
    refine ⟨verifiedAt, hdata, UInt64.le_iff_toNat_le.mpr ?_, hage⟩
    omega

-- In a world of encoded components both systems remove what has expired, and that alone.
theorem systems_remove_expired (kind : Symbol → ComponentStorage) (ops : List Op)
    (hfollows : ∀ op ∈ ops, op.Follows kind) (hencoded : Encoded (worldAfter ops)) (now maxAge : UInt64) :
    (∃ swept, RemovesExactly (fun world => commitRevealDeadlineSystem world now) commitRevealType
      (DeadlinePassed now (worldAfter ops)) (worldAfter ops) swept) ∧
    ∃ swept, RemovesExactly (fun world => cleanupVerifiedSystem world now maxAge) verifiedMarkerType
      (MarkerOutdated now maxAge (worldAfter ops)) (worldAfter ops) swept := by
  have hindexed := invariant_worldAfter ops hfollows
  exact ⟨removesExactly_sweep hindexed (hencoded.readable_commit now) (hencoded.deadlinePassed_iff now),
    removesExactly_sweep hindexed (hencoded.readable_marker now maxAge) (hencoded.markerOutdated_iff now maxAge)⟩

-- An unrevealed commitment with deadline 10 next to a marker of time 3.
def committed : List Op :=
  [.addComponentWithStorage 1 commitRevealType (encodeCommitReveal (Vector.replicate 32 5) 10 false) .Table,
    .addComponentWithStorage 2 verifiedMarkerType (encodeVerifiedMarker 3) .Sparse]

def committedKind (t : Symbol) : ComponentStorage := if t = commitRevealType then .Table else .Sparse

theorem follows_committed : ∀ op ∈ committed, op.Follows committedKind := by
  intro op hop
  rcases List.mem_cons.mp hop with rfl | hop
  · exact (if_pos rfl).symm
  · rw [List.mem_singleton.mp hop]
    exact (if_neg (by decide)).symm

theorem encoded_committed : Encoded (worldAfter committed) := by
  have hget : ∀ e t, (worldAfter committed).getComponent e t = contentsAfter committed (e, t) :=
    (mirrors_worldAfter committed (oneCopy_of_follows committed follows_committed)).get
  have htypes : commitRevealType ≠ verifiedMarkerType := by decide
  constructor
  · intro e data hdata
    rw [hget, contentsAfter, committed] at hdata
    simp only [Transition.run_cons, Transition.run_nil, Contents.step, Function.update_apply,
      Prod.mk.injEq, htypes, and_false, if_false, and_true] at hdata
    split_ifs at hdata
    exact ⟨_, _, _, (Option.some.inj hdata).symm⟩
  · intro e data hdata
    rw [hget, contentsAfter, committed] at hdata
    simp only [Transition.run_cons, Transition.run_nil, Contents.step, Function.update_apply,
      Prod.mk.injEq, htypes.symm, and_false, if_false, and_true] at hdata
    split_ifs at hdata
    exact ⟨_, (Option.some.inj hdata).symm⟩

theorem committed_world_swept :
    (∃ swept, RemovesExactly (fun world => commitRevealDeadlineSystem world 20) commitRevealType
      (DeadlinePassed 20 (worldAfter committed)) (worldAfter committed) swept) ∧
    ∃ swept, RemovesExactly (fun world => cleanupVerifiedSystem world 20 5) verifiedMarkerType
      (MarkerOutdated 20 5 (worldAfter committed)) (worldAfter committed) swept :=
  systems_remove_expired committedKind committed follows_committed encoded_committed 20 5

end Expiry

section Malformed

-- The world that is left when the components of type `t` which are not well formed are taken out. What else
-- there is stays as it was, and so does what is listed for the entities that are well formed.
structure WithoutMalformed (t : Symbol) (wellFormed : Bytes → Prop) (world clean : SimpleWorld) : Prop where
  others : ∀ e u, u ≠ t → Alike clean world e u
  same : ∀ e, (∀ data, world.getComponent e t = some data → wellFormed data) → Alike clean world e t
  listed : ∀ e, (∀ data, world.getComponent e t = some data → wellFormed data) →
    (t ∈ clean.types e ↔ t ∈ world.types e)
  clean : ∀ e data, clean.getComponent e t = some data → wellFormed data

-- The system finishes, and the entities that are well formed come out as they would without the others.
def Unblocked (system : SimpleWorld → Option SimpleWorld) (t : Symbol) (wellFormed : Bytes → Prop)
    (world : SimpleWorld) : Prop :=
  ∃ swept, system world = some swept ∧ ∀ clean, WithoutMalformed t wellFormed world clean →
    ∃ sweptClean, system clean = some sweptClean ∧
      ∀ e, (∀ data, world.getComponent e t = some data → wellFormed data) →
        ∀ u, swept.getComponent e u = sweptClean.getComponent e u

variable {t : Symbol} {expired : Bytes → Option Bool} {world : SimpleWorld}

-- What becomes of an entity depends on what is listed and stored for it alone.
theorem sweeps_congr {other swept sweptOther : SimpleWorld} {e : EntityId}
    (hsweeps : Sweeps t expired (world.getEntitiesWithComponent t) world swept)
    (hsweeps' : Sweeps t expired (other.getEntitiesWithComponent t) other sweptOther)
    (hlisted : t ∈ other.types e ↔ t ∈ world.types e) (halike : ∀ u, Alike other world e u) (u : Symbol) :
    Alike swept sweptOther e u := by
  have hmem : e ∈ other.getEntitiesWithComponent t ↔ e ∈ world.getEntitiesWithComponent t := by
    rw [mem_getEntitiesWithComponent_iff_listed, mem_getEntitiesWithComponent_iff_listed, hlisted]
  have hexpired : Expired t expired other e ↔ Expired t expired world e := expired_congr (halike t)
  by_cases hgone : u = t ∧ e ∈ world.getEntitiesWithComponent t ∧ Expired t expired world e
  · obtain ⟨rfl, hin, hold⟩ := hgone
    have hhere := hsweeps.removed e hin hold
    have hthere := hsweeps'.removed e (hmem.mpr hin) (hexpired.mpr hold)
    exact hhere.trans ((halike u).symm.removeComponent.trans hthere.symm)
  · have hhere := hsweeps.kept e u hgone
    have hthere := hsweeps'.kept e u (by rwa [hmem, hexpired])
    exact hhere.trans ((halike u).symm.trans hthere.symm)

-- Blocked is who meets a component too short to decode, since its trap ends the whole walk.
theorem unblocked_sweep_iff (t : Symbol) {size : Nat} (hsize : ∀ data, (expired data).isSome ↔ size ≤ data.length)
    {wellFormed : Bytes → Prop} (hwellFormed : ∀ data, wellFormed data → size ≤ data.length)
    (world : SimpleWorld) : Unblocked (sweep t expired) t wellFormed world ↔
      ∀ e ∈ world.getEntitiesWithComponent t, ∀ data, world.getComponent e t = some data →
      size ≤ data.length := by
  have hreadable : ∀ world e, Readable t expired world e ↔
      ∀ data, world.getComponent e t = some data → size ≤ data.length := by
    intro world e
    simp only [Readable, hsize]
  constructor
  · rintro ⟨swept, hswept, _⟩ e he
    exact (hreadable world e).mp ((isSome_sweep_iff t expired world).mp (by rw [hswept]; rfl) e he)
  · intro hlong
    obtain ⟨swept, hswept, hsweeps⟩ := sweep_spec fun e he => (hreadable world e).mpr (hlong e he)
    refine ⟨swept, hswept, fun clean hclean => ?_⟩
    have hclean' : ∀ e, Readable t expired clean e :=
      fun e => (hreadable clean e).mpr fun data hdata => hwellFormed data (hclean.clean e data hdata)
    obtain ⟨sweptClean, hsweptClean, hsweeps'⟩ := sweep_spec fun e _ => hclean' e
    refine ⟨sweptClean, hsweptClean, fun e he u => Alike.getComponent_eq ?_⟩
    refine sweeps_congr hsweeps hsweeps' (hclean.listed e he) (fun u => ?_) u
    by_cases hu : u = t
    · exact hu ▸ hclean.same e he
    · exact hclean.others e u hu

-- In every world the two systems are blocked by a listed component that is shorter than its layout, whatever
-- of the longer ones counts as well formed.
theorem systems_unblocked_iff (world : SimpleWorld) (now maxAge : UInt64) :
    (∀ wellFormed : Bytes → Prop, (∀ data, wellFormed data → 41 ≤ data.length) →
      (Unblocked (fun world => commitRevealDeadlineSystem world now) commitRevealType wellFormed world ↔
        ∀ e ∈ world.getEntitiesWithComponent commitRevealType, ∀ data,
          world.getComponent e commitRevealType = some data → 41 ≤ data.length)) ∧
    ∀ wellFormed : Bytes → Prop, (∀ data, wellFormed data → 8 ≤ data.length) →
      (Unblocked (fun world => cleanupVerifiedSystem world now maxAge) verifiedMarkerType wellFormed world ↔
        ∀ e ∈ world.getEntitiesWithComponent verifiedMarkerType, ∀ data,
          world.getComponent e verifiedMarkerType = some data → 8 ≤ data.length) :=
  ⟨fun _ h => unblocked_sweep_iff commitRevealType (isSome_commitExpired_iff now) h world,
    fun _ h => unblocked_sweep_iff verifiedMarkerType (isSome_markerExpired_iff now maxAge) h world⟩

-- The first entity carries no bytes, the second a commitment whose deadline is over.
def shortEntry : SimpleWorld :=
  (SimpleWorld.new.addComponent 1 commitRevealType []).addComponent 2 commitRevealType
    (encodeCommitReveal (Vector.replicate 32 5) 10 false)

theorem short_entry_blocks :
    ¬Unblocked (fun world => commitRevealDeadlineSystem world 20) commitRevealType
    (·.length = 41) shortEntry := by
  rintro ⟨swept, hswept, _⟩
  have htrap : (commitRevealDeadlineSystem shortEntry 20).isSome = false := by decide
  have hends : commitRevealDeadlineSystem shortEntry 20 = some swept := hswept
  rw [hends] at htrap
  cases htrap

end Malformed

end Cougr.Zk
