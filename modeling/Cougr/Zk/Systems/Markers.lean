import Cougr.SimpleWorld.Typed
import Cougr.Accounts.Authorize
import Cougr.Zk.Groth16
import Cougr.Zk.Systems.Expiry

namespace Cougr

open SimpleWorld

namespace Zk

-- Whatever the verification answers besides yes leaves the world alone.
def verifyProofsSystem (host : Bn254) (world : SimpleWorld) (now : UInt64) (entityId : EntityId)
    (vk : VerificationKey) (proof : Groth16Proof) (publicInputs : List Scalar) : Option (Bool × SimpleWorld) :=
  match verifyGroth16 host vk proof publicInputs with
  | some (.ok true) =>
    let markerData := encodeVerifiedMarker now
    some (true, world.addComponent entityId verifiedMarkerType markerData)
  | some _ => some (false, world)
  | none => none

end Zk

open Zk

namespace GameWorld

variable {A : Type}

def submitProof (host : Bn254) (self : GameWorld A) (now : UInt64) (entityId : EntityId) (vk : VerificationKey)
    (proof : Groth16Proof) (publicInputs : List Scalar) : Option (Except ZKError Bool × GameWorld A) :=
  (verifyProofsSystem host self.world now entityId vk proof publicInputs).map fun (verified, world) =>
    (.ok verified, { self with world })

def registerPlayer (self : GameWorld A) : EntityId × GameWorld A :=
  let (id, world) := self.world.spawnEntity
  (id, { self with world })

end GameWorld

-- Every addition but that of a marker.
def SimpleWorld.Op.AddsNoMarker : Op → Prop
  | .addComponentWithStorage _ componentType _ _ => componentType ≠ verifiedMarkerType
  | _ => True

-- What is done to the world of a game. Markers are left to the verification; a system of the game may remove
-- them, and do anything to the other components through `world_mut`.
inductive ProofOp where
  | submitProof (entityId : EntityId) (vk : VerificationKey) (proof : Groth16Proof) (publicInputs : List Scalar)
  | registerPlayer
  | cleanupVerified (maxAge : UInt64)
  | commitRevealDeadline
  | worldMut (edit : { op : Op // op.AddsNoMarker })

-- A call in an invocation at a ledger time.
structure ProofCall where
  now : UInt64
  op : ProofOp

namespace GameWorld

variable {A : Type}

-- A call that traps is rolled back.
def stepProof (host : Bn254) (self : GameWorld A) (call : ProofCall) : GameWorld A :=
  match call.op with
  | .submitProof entityId vk proof publicInputs =>
    ((self.submitProof host call.now entityId vk proof publicInputs).map Prod.snd).getD self
  | .registerPlayer => self.registerPlayer.2
  | .cleanupVerified maxAge =>
    { self with world := (cleanupVerifiedSystem self.world call.now maxAge).getD self.world }
  | .commitRevealDeadline =>
    { self with world := (commitRevealDeadlineSystem self.world call.now).getD self.world }
  | .worldMut edit => { self with world := self.world.step edit.1 }

def gameAfter (host : Bn254) (account : A) (calls : List ProofCall) : GameWorld A :=
  Transition.run (stepProof host) (GameWorld.new SimpleWorld.new account) calls

end GameWorld

namespace ProofCall

-- The call hands in a proof for the entity, and the verification accepts it.
def Accepted (host : Bn254) (call : ProofCall) (e : EntityId) : Prop :=
  ∃ vk proof publicInputs, call.op = .submitProof e vk proof publicInputs ∧
    verifyGroth16 host vk proof publicInputs = some (.ok true)

-- The call takes a marker of this time from the entity: a cleanup that finds it too old, or an edit.
def Takes (call : ProofCall) (e : EntityId) (verifiedAt : UInt64) : Prop :=
  match call.op with
  | .cleanupVerified maxAge => call.now.toNat - verifiedAt.toNat > maxAge.toNat
  | .worldMut edit => edit.1 = .despawnEntity e ∨ edit.1 = .removeComponent e verifiedMarkerType
  | _ => False

end ProofCall

namespace Zk

section Removals

variable {t : Symbol} {expired : Bytes → Option Bool} {world swept : SimpleWorld}

-- A sweep that ends has removed the component from some entities, one after the other.
theorem exists_removals_of_foldlM {entities : List EntityId}
    (hsweep : entities.foldlM (sweepEntity t expired) world = some swept) :
    ∃ gone : List EntityId, swept = Transition.run SimpleWorld.step world
      (gone.map fun e => .removeComponent e t) := by
  induction entities generalizing world with
  | nil => exact ⟨[], (Option.some.inj hsweep).symm⟩
  | cons e entities ih =>
      rw [List.foldlM_cons] at hsweep
      obtain ⟨next, hturn, hrest⟩ := Option.bind_eq_some_iff.mp hsweep
      obtain ⟨gone, rfl⟩ := ih hrest
      rcases sweepEntity_cases hturn with ⟨_, rfl⟩ | ⟨_, rfl⟩
      · exact ⟨e :: gone, rfl⟩
      · exact ⟨gone, rfl⟩

theorem indexedAt_sweep {kind : ComponentStorage} {u : Symbol} (h : IndexedAt kind u world)
    (hsweep : sweep t expired world = some swept) : IndexedAt kind u swept := by
  obtain ⟨gone, rfl⟩ := exists_removals_of_foldlM hsweep
  refine Transition.run_invariant_of_forall (IndexedAt kind u)
    (fun _ op hworld (hop : op.FollowsAt kind u) => indexedAt_step hworld hop) h _ ?_
  intro op hop
  obtain ⟨e, _, rfl⟩ := List.mem_map.mp hop
  trivial

-- A sweep takes an indexed component exactly from the entities whose data has expired.
theorem getComponent_sweep {kind : ComponentStorage} (h : IndexedAt kind t world)
    (hsweep : sweep t expired world = some swept) (e : EntityId) (data : Bytes) :
    swept.getComponent e t = some data ↔ world.getComponent e t = some data ∧ expired data ≠ some true := by
  have hreadable := (isSome_sweep_iff t expired world).mp (by rw [hsweep]; rfl)
  obtain ⟨same, hsame, hsweeps⟩ := sweep_spec hreadable
  obtain rfl : swept = same := Option.some.inj (hsweep.symm.trans hsame)
  by_cases hexpired : Expired t expired world e
  · obtain ⟨old, hold, hyes⟩ := hexpired
    have hlisted : e ∈ world.getEntitiesWithComponent t := by
      rw [mem_getEntitiesWithComponent_iff_listed, ← h.hasComponent_iff, hasComponent_eq_isSome, hold]
      rfl
    have hgone : (world.removeComponent e t).2.getComponent e t = none := by
      have hstep := @IndexedAt.getComponent_step _ _ _ h (.removeComponent e t) trivial e
      simpa [step, Contents.step] using hstep
    rw [(hsweeps.removed e hlisted ⟨old, hold, hyes⟩).getComponent_eq, hgone, hold]
    refine iff_of_false (Option.some_ne_none data).symm ?_
    rintro ⟨heq, hno⟩
    exact hno (Option.some.inj heq ▸ hyes)
  · rw [(hsweeps.kept e t fun hall => hexpired hall.2.2).getComponent_eq, iff_self_and]
    exact fun hdata hyes => hexpired ⟨data, hdata, hyes⟩

theorem getComponent_sweep_of_ne (hsweep : sweep t expired world = some swept) (e : EntityId) {u : Symbol}
    (hne : u ≠ t) : swept.getComponent e u = world.getComponent e u := by
  have hreadable := (isSome_sweep_iff t expired world).mp (by rw [hsweep]; rfl)
  obtain ⟨same, hsame, hsweeps⟩ := sweep_spec hreadable
  obtain rfl : swept = same := Option.some.inj (hsweep.symm.trans hsame)
  exact (hsweeps.kept e u fun hall => hne hall.1).getComponent_eq

end Removals

end Zk

namespace GameWorld

variable {A : Type} {host : Bn254} {self : GameWorld A}

-- Markers lie in the table map, and each of them is a time written out.
structure KeepsMarkers (world : SimpleWorld) : Prop where
  indexed : IndexedAt .Table verifiedMarkerType world
  encoded : ∀ e data, world.getComponent e verifiedMarkerType = some data →
    ∃ verifiedAt, data = encodeVerifiedMarker verifiedAt

theorem world_submitProof_cases (host : Bn254) (self : GameWorld A) (now : UInt64) (e : EntityId)
    (vk : VerificationKey) (proof : Groth16Proof) (publicInputs : List Scalar) :
    verifyGroth16 host vk proof publicInputs = some (.ok true) ∧
        (self.stepProof host ⟨now, .submitProof e vk proof publicInputs⟩).world =
          self.world.addComponent e verifiedMarkerType (encodeVerifiedMarker now) ∨
      verifyGroth16 host vk proof publicInputs ≠ some (.ok true) ∧
        (self.stepProof host ⟨now, .submitProof e vk proof publicInputs⟩).world = self.world := by
  simp only [stepProof, submitProof, verifyProofsSystem]
  cases hanswer : verifyGroth16 host vk proof publicInputs with
  | none => exact Or.inr ⟨nofun, rfl⟩
  | some answer =>
      match answer with
      | .ok true => exact Or.inl ⟨rfl, rfl⟩
      | .ok false => exact Or.inr ⟨nofun, rfl⟩
      | .error _ => exact Or.inr ⟨nofun, rfl⟩

theorem followsAt_of_addsNoMarker {op : Op} (hop : op.AddsNoMarker) : op.FollowsAt .Table verifiedMarkerType := by
  cases op with
  | addComponentWithStorage e t data storage => exact fun heq => absurd heq hop
  | _ => trivial

theorem indexedAt_stepProof (h : IndexedAt .Table verifiedMarkerType self.world) (call : ProofCall) :
    IndexedAt .Table verifiedMarkerType (self.stepProof host call).world := by
  obtain ⟨now, op⟩ := call
  cases op with
  | submitProof e vk proof publicInputs =>
      rcases world_submitProof_cases host self now e vk proof publicInputs with ⟨_, hworld⟩ | ⟨_, hworld⟩
      · rw [hworld]
        exact @indexedAt_step _ _ _ h (.addComponentWithStorage e verifiedMarkerType _ .Table) fun _ => rfl
      · rwa [hworld]
  | registerPlayer => exact @indexedAt_step _ _ _ h .spawnEntity trivial
  | cleanupVerified maxAge =>
      simp only [stepProof]
      cases hsweep : cleanupVerifiedSystem self.world now maxAge with
      | none => exact h
      | some swept => exact indexedAt_sweep h hsweep
  | commitRevealDeadline =>
      simp only [stepProof]
      cases hsweep : commitRevealDeadlineSystem self.world now with
      | none => exact h
      | some swept => exact indexedAt_sweep h hsweep
  | worldMut edit => exact indexedAt_step h (followsAt_of_addsNoMarker edit.2)

theorem encodeVerifiedMarker_inj {first second : UInt64} :
    encodeVerifiedMarker first = encodeVerifiedMarker second ↔ first = second := by
  refine ⟨fun h => ?_, congrArg encodeVerifiedMarker⟩
  have hfirst := decodeVerifiedAt_encode first
  rw [h, decodeVerifiedAt_encode] at hfirst
  exact (Option.some.inj hfirst).symm

-- The marker of an entity after one call.
theorem marker_stepProof (h : KeepsMarkers self.world) (call : ProofCall) (e : EntityId) (data : Bytes) :
    (self.stepProof host call).world.getComponent e verifiedMarkerType = some data ↔
      (call.Accepted host e ∧ data = encodeVerifiedMarker call.now) ∨
        self.world.getComponent e verifiedMarkerType = some data ∧
          ¬(call.Accepted host e ∨ ∃ verifiedAt, data = encodeVerifiedMarker verifiedAt ∧
            call.Takes e verifiedAt) := by
  obtain ⟨now, op⟩ := call
  cases op with
  | submitProof e' vk proof publicInputs =>
      have haccepted : ProofCall.Accepted host ⟨now, .submitProof e' vk proof publicInputs⟩ e ↔
          e = e' ∧ verifyGroth16 host vk proof publicInputs = some (.ok true) := by
        simp only [ProofCall.Accepted, ProofOp.submitProof.injEq]
        constructor
        · rintro ⟨_, _, _, ⟨rfl, rfl, rfl, rfl⟩, hyes⟩
          exact ⟨rfl, hyes⟩
        · rintro ⟨rfl, hyes⟩
          exact ⟨vk, proof, publicInputs, ⟨rfl, rfl, rfl, rfl⟩, hyes⟩
      simp only [haccepted, ProofCall.Takes, and_false, exists_false, or_false]
      rcases world_submitProof_cases host self now e' vk proof publicInputs with ⟨hyes, hworld⟩ | ⟨hno, hworld⟩
      · have hstep := @IndexedAt.getComponent_step _ _ _ h.indexed
          (.addComponentWithStorage e' verifiedMarkerType (encodeVerifiedMarker now) .Table) (fun _ => rfl) e
        rw [hworld]
        simp only [step, Contents.step, Function.update_apply, Prod.mk.injEq, and_true] at hstep
        rw [addComponent, hstep]
        by_cases he : e = e'
        · simp [he, hyes, eq_comm]
        · simp [he]
      · simp [hworld, hno]
  | registerPlayer =>
      have hsame : (self.stepProof host ⟨now, .registerPlayer⟩).world.getComponent e verifiedMarkerType =
          self.world.getComponent e verifiedMarkerType := rfl
      simp [hsame, ProofCall.Accepted, ProofCall.Takes]
  | cleanupVerified maxAge =>
      simp only [ProofCall.Accepted, ProofCall.Takes, reduceCtorEq, false_and, exists_false, false_or, stepProof]
      cases hsweep : cleanupVerifiedSystem self.world now maxAge with
      | none =>
          -- a trap would need a marker that cannot be read
          have hreads : (cleanupVerifiedSystem self.world now maxAge).isSome := by
            refine (isSome_sweep_iff _ _ _).mpr fun other _ data hdata => ?_
            obtain ⟨verifiedAt, rfl⟩ := h.encoded other data hdata
            rw [markerExpired_encode]
            rfl
          rw [hsweep] at hreads
          cases hreads
      | some swept =>
          rw [Option.getD_some, getComponent_sweep h.indexed hsweep]
          refine and_congr_right fun hdata => not_congr ?_
          obtain ⟨verifiedAt, rfl⟩ := h.encoded e data hdata
          simp [markerExpired_encode, encodeVerifiedMarker_inj]
  | commitRevealDeadline =>
      simp only [ProofCall.Accepted, ProofCall.Takes, reduceCtorEq, false_and, and_false, exists_false, false_or,
        not_false_eq_true, and_true, stepProof]
      cases hsweep : commitRevealDeadlineSystem self.world now with
      | none => rfl
      | some swept => rw [Option.getD_some, getComponent_sweep_of_ne hsweep e (by decide)]
  | worldMut edit =>
      obtain ⟨op, hop⟩ := edit
      have hstep := h.indexed.getComponent_step (followsAt_of_addsNoMarker hop) e
      simp only [ProofCall.Accepted, ProofCall.Takes, reduceCtorEq, false_and, exists_false, false_or, stepProof]
      have htakes : self.world.getComponent e verifiedMarkerType = some data →
          ((∃ verifiedAt, data = encodeVerifiedMarker verifiedAt ∧
            (op = .despawnEntity e ∨ op = .removeComponent e verifiedMarkerType)) ↔
            (op = .despawnEntity e ∨ op = .removeComponent e verifiedMarkerType)) := by
        intro hdata
        obtain ⟨verifiedAt, hencoded⟩ := h.encoded e data hdata
        constructor
        · rintro ⟨_, _, htaken⟩
          exact htaken
        · intro htaken
          exact ⟨verifiedAt, hencoded, htaken⟩
      rw [hstep, and_congr_right fun hdata => not_congr (htakes hdata)]
      cases op with
      | spawnEntity => simp [Contents.step]
      | addComponentWithStorage e' t bytes storage =>
          have hother : t ≠ verifiedMarkerType := hop
          simp [Contents.step, hother.symm]
      | removeComponent e' t =>
          by_cases hsame : e' = e ∧ t = verifiedMarkerType
          · simp [Contents.step, hsame]
          · have hkey : ¬(e = e' ∧ verifiedMarkerType = t) := fun heq => hsame ⟨heq.1.symm, heq.2.symm⟩
            simp [Contents.step, hsame, hkey]
      | despawnEntity e' =>
          by_cases hsame : e' = e
          · simp [Contents.step, hsame]
          · simp [Contents.step, hsame, Ne.symm hsame]

theorem keepsMarkers_stepProof (h : KeepsMarkers self.world) (call : ProofCall) :
    KeepsMarkers (self.stepProof host call).world where
  indexed := indexedAt_stepProof h.indexed call
  encoded e data hdata := by
    rcases (marker_stepProof h call e data).mp hdata with ⟨_, hfresh⟩ | ⟨hold, _⟩
    · exact ⟨call.now, hfresh⟩
    · exact h.encoded e data hold

theorem keepsMarkers_gameAfter (host : Bn254) (account : A) (calls : List ProofCall) :
    KeepsMarkers (gameAfter host account calls).world := by
  have hnew : ∀ e, (GameWorld.new SimpleWorld.new account).world.getComponent e verifiedMarkerType = none := by
    intro e
    simp [GameWorld.new, getComponent, SimpleWorld.new]
  refine Transition.run_invariant_of_step (fun self : GameWorld A => KeepsMarkers self.world)
    (fun _ call h => keepsMarkers_stepProof h call) ⟨indexedAt_new, fun e data hdata => ?_⟩ calls
  rw [hnew e] at hdata
  cases hdata

-- An entity carries a marker exactly when the verification has accepted a proof for it and nothing has taken or
-- renewed the marker since; the marker tells when that was.
theorem marker_gameAfter_iff (host : Bn254) (account : A) (calls : List ProofCall) (e : EntityId) (data : Bytes) :
    (gameAfter host account calls).world.getComponent e verifiedMarkerType = some data ↔
      ∃ past call rest, calls = past ++ call :: rest ∧ call.Accepted host e ∧
        data = encodeVerifiedMarker call.now ∧
        ∀ later ∈ rest, ¬(later.Accepted host e ∨ later.Takes e call.now) := by
  have hpresent : ∀ verifiedAt, (gameAfter host account calls).world.getComponent e verifiedMarkerType =
      some (encodeVerifiedMarker verifiedAt) ↔
      ∃ past call rest, calls = past ++ call :: rest ∧ (call.Accepted host e ∧ verifiedAt = call.now) ∧
        ∀ later ∈ rest, ¬(later.Accepted host e ∨ later.Takes e verifiedAt) := by
    intro verifiedAt
    refine Transition.run_present_iff_of_reachable
      (fun self : GameWorld A => self.world.getComponent e verifiedMarkerType =
        some (encodeVerifiedMarker verifiedAt))
      (by simp [GameWorld.new, getComponent, SimpleWorld.new]) (fun past call => ?_) calls
    have hkeeps := keepsMarkers_gameAfter host account past
    have hstep := @marker_stepProof A host _ hkeeps call e (encodeVerifiedMarker verifiedAt)
    simp only [encodeVerifiedMarker_inj, exists_eq_left'] at hstep
    exact hstep
  constructor
  · intro hdata
    obtain ⟨verifiedAt, rfl⟩ := (keepsMarkers_gameAfter host account calls).encoded e data hdata
    obtain ⟨past, call, rest, hcalls, ⟨haccepted, rfl⟩, hrest⟩ := (hpresent verifiedAt).mp hdata
    exact ⟨past, call, rest, hcalls, haccepted, rfl, hrest⟩
  · rintro ⟨past, call, rest, hcalls, haccepted, rfl, hrest⟩
    exact (hpresent call.now).mpr ⟨past, call, rest, hcalls, ⟨haccepted, rfl⟩, hrest⟩

end GameWorld

end Cougr
