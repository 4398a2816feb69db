import Cougr.Accounts.Devices

namespace Cougr.Accounts

namespace DeviceStorage

theorem loadDevices_storeDevices (env : Env) (account : Address) (devices : List DeviceKey) :
    loadDevices (storeDevices env account devices) account = devices := by
  rw [loadDevices, storeDevices, Env.get_set_self]
  rfl

theorem loadPolicy_storePolicy (env : Env) (account : Address) (policy : DevicePolicy) :
    loadPolicy (storePolicy env account policy) account = some policy := by
  rw [loadPolicy, storePolicy, Env.get_set_self]

theorem loadPolicy_storeDevices (env : Env) (account : Address) (devices : List DeviceKey) :
    loadPolicy (storeDevices env account devices) account = loadPolicy env account := by
  rw [loadPolicy, storeDevices, Env.get_set_of_ne _ _ (by simp)]
  rfl

section Update

variable (env : Env) (account : Address) (keyId : BytesN 32) (updater : DeviceKey → DeviceKey)

theorem updateDevice_ok_iff :
    (updateDevice env account keyId updater).1 = .ok () ↔ ∃ d ∈ loadDevices env account, d.keyId = keyId := by
  unfold updateDevice
  dsimp only
  split_ifs with hfound
  · simpa using hfound
  · simpa using hfound

-- Where no record has the key there is nothing to write back.
theorem loadDevices_updateDevice :
    loadDevices (updateDevice env account keyId updater).2 account =
      KeyedList.modifyFirst DeviceKey.keyId keyId updater (loadDevices env account) := by
  unfold updateDevice
  dsimp only
  split_ifs with hfound
  · exact loadDevices_storeDevices ..
  · have habsent : ∀ d ∈ loadDevices env account, d.keyId ≠ keyId := by simpa using hfound
    rw [KeyedList.modifyFirst_eq_self habsent]

theorem loadPolicy_updateDevice :
    loadPolicy (updateDevice env account keyId updater).2 account = loadPolicy env account := by
  unfold updateDevice
  dsimp only
  split_ifs
  · exact loadPolicy_storeDevices ..
  · rfl

end Update

end DeviceStorage

namespace DeviceManager

open DeviceStorage Transition

section Revoke

def holds (keyId : BytesN 32) (d : DeviceKey) : Bool := d.keyId = keyId && d.isActive

-- What the owner is told by a revocation that succeeds.
structure Revoked (manager : DeviceManager) (env : Env) (keyId : BytesN 32) : Prop where
  inactive : ∀ d ∈ manager.listDevices (manager.revokeDevice env keyId).2, d.keyId = keyId → d.isActive = false
  count : manager.activeDeviceCount (manager.revokeDevice env keyId).2 +
    (manager.listDevices env).countP (holds keyId) = manager.activeDeviceCount env

variable (self : DeviceManager) (env : Env) (keyId : BytesN 32)

-- Behind the first record of the key there is no active one.
def FirstOnly (devices : List DeviceKey) (keyId : BytesN 32) : Prop :=
  ∀ d ∈ (devices.filter fun d => d.keyId = keyId).tail, d.isActive = false

theorem countP_holds (devices : List DeviceKey) :
    devices.countP (holds keyId) =
      (devices.filter fun d => d.keyId = keyId).countP DeviceKey.isActive := by
  rw [List.countP_filter]
  apply List.countP_congr
  intro d _
  simp [holds, and_comm]

-- The active records are those of the key and those of the others.
theorem countP_isActive (devices : List DeviceKey) :
    devices.countP DeviceKey.isActive = devices.countP (holds keyId) +
      (devices.filter fun d => d.keyId ≠ keyId).countP DeviceKey.isActive := by
  have hsplit := devices.countP_eq_countP_filter_add DeviceKey.isActive fun d => d.keyId = keyId
  rw [← countP_holds] at hsplit
  simpa only [ne_eq, decide_not] using hsplit

theorem listDevices_revokeDevice :
    self.listDevices (self.revokeDevice env keyId).2 =
      KeyedList.modifyFirst DeviceKey.keyId keyId (fun d => { d with isActive := false })
        (self.listDevices env) := loadDevices_updateDevice ..

theorem revoked_iff_inactive : Revoked self env keyId ↔
    ∀ d ∈ self.listDevices (self.revokeDevice env keyId).2, d.keyId = keyId → d.isActive = false := by
  refine ⟨Revoked.inactive, fun hinactive => ⟨hinactive, ?_⟩⟩
  have hafter : (self.listDevices (self.revokeDevice env keyId).2).countP (holds keyId) = 0 := by
    rw [List.countP_eq_zero]
    intro d hd
    simpa [holds] using hinactive d hd
  have hothers : (self.listDevices (self.revokeDevice env keyId).2).filter (fun d => d.keyId ≠ keyId) =
      (self.listDevices env).filter fun d => d.keyId ≠ keyId := by
    rw [listDevices_revokeDevice]
    apply KeyedList.filter_modifyFirst_of_ne
    exact fun _ => rfl
  have hsplit := countP_isActive keyId (self.listDevices (self.revokeDevice env keyId).2)
  have hbefore := countP_isActive keyId (self.listDevices env)
  rw [hafter, hothers] at hsplit
  unfold activeDeviceCount
  unfold listDevices at hsplit hbefore ⊢
  omega

theorem revoked_iff_firstOnly : Revoked self env keyId ↔ FirstOnly (self.listDevices env) keyId := by
  have hrecords : (self.listDevices (self.revokeDevice env keyId).2).filter (fun d => d.keyId = keyId) =
      ((self.listDevices env).filter fun d => d.keyId = keyId).modifyHead
        fun d => { d with isActive := false } := by
    rw [listDevices_revokeDevice]
    apply KeyedList.filter_modifyFirst
    exact fun _ => rfl
  have hmem : Revoked self env keyId ↔
      ∀ d ∈ (self.listDevices (self.revokeDevice env keyId).2).filter (fun d => d.keyId = keyId),
        d.isActive = false := by
    rw [revoked_iff_inactive]
    simp only [List.mem_filter, decide_eq_true_eq, and_imp]
  rw [hmem, hrecords, FirstOnly]
  cases (self.listDevices env).filter fun d => d.keyId = keyId with
  | nil => simp
  | cons first rest => simp

end Revoke

-- In every revocation of the run that succeeds the key is revoked.
def Revokes (self : DeviceManager) (start : Env) (ops : List Op) : Prop :=
  ∀ past keyId rest, ops = past ++ .use (.revokeDevice keyId) :: rest →
    (self.revokeDevice (run self.step start past) keyId).1 = .ok () →
    Revoked self (run self.step start past) keyId

def RevokesFirst (self : DeviceManager) (env : Env) : Op → Prop
  | .use (.revokeDevice keyId) => FirstOnly (self.listDevices env) keyId
  | _ => True

-- A revocation reaches the first record of its key only, and a key that was registered again has more.
theorem revokes_iff_first (address : Address) (policy : DevicePolicy) (env : Env) (ops : List Op) :
    Revokes (new address policy env).1 (new address policy env).2 ops ↔
      StepsMeet (new address policy env).1.step (new address policy env).1.RevokesFirst
        (new address policy env).2 ops := by
  rw [stepsMeet_iff_forall_cut]
  constructor
  · intro hrevokes past op rest hsplit
    cases op with
    | setPolicy policy => trivial
    | use use =>
        cases use with
        | revokeDevice keyId =>
            have hrevoked := hrevokes past keyId rest hsplit
            by_cases hfound : ∃ d ∈ (new address policy env).1.listDevices
                (run (new address policy env).1.step (new address policy env).2 past), d.keyId = keyId
            · exact (revoked_iff_firstOnly ..).mp (hrevoked ((updateDevice_ok_iff ..).mpr hfound))
            · intro d hd
              have hd := List.mem_filter.mp (List.mem_of_mem_tail hd)
              exact absurd ⟨d, hd.1, of_decide_eq_true hd.2⟩ hfound
        | invoke timestamp => trivial
        | registerDevice keyId deviceName => trivial
        | updateLastUsed keyId => trivial
        | cleanupInactive => trivial
  · intro hfirst past keyId rest hsplit _
    exact (revoked_iff_firstOnly ..).mpr (hfirst past _ rest hsplit)

def phone : BytesN 32 := Vector.replicate 32 7

def owner : Address := .account (Vector.replicate 32 1)

-- A device is registered, revoked, registered again and revoked again, which does nothing.
def registeredAgain : List Op :=
  [.use (.registerDevice phone (symbolShort "phone")), .use (.revokeDevice phone),
    .use (.registerDevice phone (symbolShort "phone")), .use (.revokeDevice phone)]

theorem registered_again_not_revoked :
    ¬Revokes (new owner ⟨3, 0⟩ (Env.fresh 0)).1 (new owner ⟨3, 0⟩ (Env.fresh 0)).2 registeredAgain := by
  intro hrevokes
  have hrevoked := (hrevokes (registeredAgain.take 3) phone [] rfl (by decide)).inactive
  revert hrevoked
  decide

section Registry

-- What may become of a record: it keeps its place and its identity, and once inactive it stays so.
structure Succeeds (d d' : DeviceKey) : Prop where
  keyId : d'.keyId = d.keyId
  deviceName : d'.deviceName = d.deviceName
  registeredAt : d'.registeredAt = d.registeredAt
  inactive : d.isActive = false → d'.isActive = false

structure Continues (devices later : List DeviceKey) : Prop where
  records : (devices.map fun d => (d.keyId, d.deviceName, d.registeredAt)) <+:
    later.map fun d => (d.keyId, d.deviceName, d.registeredAt)
  inactive : ∀ (i : Nat) (d d' : DeviceKey), devices[i]? = some d → later[i]? = some d' →
    d.isActive = false → d'.isActive = false

-- What holds of the device list of an account under one policy.
structure Registry (policy : DevicePolicy) (devices : List DeviceKey) : Prop where
  unique : ∀ keyId, devices.countP (holds keyId) ≤ 1
  limit : devices.countP DeviceKey.isActive ≤ policy.maxDevices

theorem Succeeds.refl (d : DeviceKey) : Succeeds d d := ⟨rfl, rfl, rfl, id⟩

theorem succeeds_deactivated (d : DeviceKey) : Succeeds d { d with isActive := false } :=
  ⟨rfl, rfl, rfl, fun _ => rfl⟩

theorem succeeds_used (d : DeviceKey) (now : Nat) : Succeeds d { d with lastUsed := now } :=
  ⟨rfl, rfl, rfl, id⟩

theorem Continues.refl (devices : List DeviceKey) : Continues devices devices where
  records := List.prefix_refl _
  inactive i d d' hd hd' := by
    rw [hd] at hd'
    cases hd'
    exact id

theorem Continues.trans {first second third : List DeviceKey} (h : Continues first second)
    (h' : Continues second third) : Continues first third where
  records := h.records.trans h'.records
  inactive := by
    intro i d d'' hd hd'' hinactive
    have hlength := h.records.length_le
    simp only [List.length_map] at hlength
    obtain ⟨hi, _⟩ := List.getElem?_eq_some_iff.mp hd
    have hmiddle := List.getElem?_eq_getElem (Nat.lt_of_lt_of_le hi hlength)
    exact h'.inactive i _ d'' hmiddle hd'' (h.inactive i d _ hd hmiddle hinactive)

theorem continues_of_forall₂ {devices later : List DeviceKey}
    (h : List.Forall₂ Succeeds devices later) : Continues devices later := by
  induction h with
  | nil => exact Continues.refl []
  | @cons d d' devices later hfirst _ ih =>
      constructor
      · simp only [List.map_cons, hfirst.keyId, hfirst.deviceName, hfirst.registeredAt]
        exact (List.prefix_cons_inj _).mpr ih.records
      · intro i e e' he he'
        cases i with
        | zero =>
            cases he
            cases he'
            exact hfirst.inactive
        | succ i => exact ih.inactive i e e' he he'

theorem continues_append (devices : List DeviceKey) (d : DeviceKey) : Continues devices (devices ++ [d]) where
  records := by
    rw [List.map_append]
    exact List.prefix_append ..
  inactive i e e' he he' := by
    obtain ⟨hi, _⟩ := List.getElem?_eq_some_iff.mp he
    rw [List.getElem?_append_left hi, he] at he'
    cases he'
    exact id

-- Records that succeed others are active only where these were.
theorem countP_le_of_succeeds {devices later : List DeviceKey} (h : List.Forall₂ Succeeds devices later)
    {p : DeviceKey → Bool} (hp : ∀ d d', Succeeds d d' → p d' → p d) : later.countP p ≤ devices.countP p := by
  induction h with
  | nil => exact Nat.le_refl _
  | @cons d d' devices later hfirst _ ih =>
      have hkept := hp d d' hfirst
      rw [List.countP_cons, List.countP_cons]
      cases hd' : p d' with
      | true =>
          rw [hkept hd']
          exact Nat.add_le_add_right ih 1
      | false => exact Nat.le_add_right_of_le ih

theorem Registry.succeeds {policy : DevicePolicy} {devices later : List DeviceKey} (h : Registry policy devices)
    (hlater : List.Forall₂ Succeeds devices later) : Registry policy later where
  unique keyId := by
    have hle := countP_le_of_succeeds hlater (p := holds keyId) (by
      intro d d' hd hholds
      simp only [holds, Bool.and_eq_true, decide_eq_true_eq] at hholds ⊢
      refine ⟨hd.keyId ▸ hholds.1, ?_⟩
      by_contra hinactive
      rw [hd.inactive (by simpa using hinactive)] at hholds
      exact Bool.false_ne_true hholds.2)
    exact hle.trans (h.unique keyId)
  limit := by
    have hle := countP_le_of_succeeds hlater (p := DeviceKey.isActive) (by
      intro d d' hd hactive
      by_contra hinactive
      rw [hd.inactive (by simpa using hinactive)] at hactive
      exact Bool.false_ne_true hactive)
    exact hle.trans h.limit

-- A record that `register_device` appends.
structure Registrable (policy : DevicePolicy) (devices : List DeviceKey) (d : DeviceKey) : Prop where
  fresh : devices.countP (holds d.keyId) = 0
  room : devices.countP DeviceKey.isActive < policy.maxDevices
  active : d.isActive = true

theorem Registry.register {policy : DevicePolicy} {devices : List DeviceKey} {d : DeviceKey}
    (h : Registry policy devices) (hd : Registrable policy devices d) : Registry policy (devices ++ [d]) where
  unique keyId := by
    rw [List.countP_append, List.countP_singleton]
    by_cases hkey : d.keyId = keyId
    · have hfresh := hd.fresh
      rw [hkey] at hfresh
      rw [hfresh]
      split_ifs <;> omega
    · have hother : holds keyId d = false := by simp [holds, hkey]
      have hbefore := h.unique keyId
      simp only [hother, Bool.false_eq_true, if_false]
      omega
  limit := by
    have hroom := hd.room
    rw [List.countP_append, List.countP_singleton, if_pos hd.active]
    omega

section Uses

variable (self : DeviceManager) {env : Env} {policy : DevicePolicy}

theorem registerDevice_cases (hpolicy : loadPolicy env self.address = some policy) (keyId : BytesN 32)
    (deviceName : Symbol) :
    (self.registerDevice env keyId deviceName).2 = env ∨
      ∃ d, Registrable policy (self.listDevices env) d ∧
        (self.registerDevice env keyId deviceName).2 =
          storeDevices env self.address (self.listDevices env ++ [d]) := by
  unfold registerDevice
  simp only [hpolicy]
  split_ifs with hduplicate hlimit
  · exact Or.inl rfl
  · exact Or.inl rfl
  · refine Or.inr ⟨⟨keyId, deviceName, env.timestamp, env.timestamp, true⟩, ⟨?_, ?_, rfl⟩, rfl⟩
    · rw [List.countP_eq_zero]
      intro d hd hholds
      exact hduplicate (List.any_eq_true.mpr ⟨d, hd, hholds⟩)
    · exact Nat.lt_of_not_le hlimit

def deactivate (now threshold : Nat) (d : DeviceKey) : DeviceKey :=
  if stale now threshold d then { d with isActive := false } else d

theorem cleanupInactive_spec (hpolicy : loadPolicy env self.address = some policy)
    (hpositive : 0 < policy.autoRevokeAfter) :
    (self.cleanupInactive env).1 =
        (self.listDevices env).countP (stale env.timestamp policy.autoRevokeAfter) ∧
      self.listDevices (self.cleanupInactive env).2 =
        (self.listDevices env).map (deactivate env.timestamp policy.autoRevokeAfter) := by
  unfold cleanupInactive
  simp only [hpolicy, Option.getD_some, if_neg (Nat.ne_of_gt hpositive)]
  refine ⟨rfl, ?_⟩
  split_ifs with hrevoked
  · exact loadDevices_storeDevices ..
  · -- nothing is stale, so the map that is not stored changes nothing
    have hnone := List.countP_eq_zero.mp (Nat.eq_zero_of_not_pos hrevoked)
    have hsame : ∀ d ∈ self.listDevices env, deactivate env.timestamp policy.autoRevokeAfter d = d :=
      fun d hd => if_neg (hnone d hd)
    exact ((List.map_congr_left hsame).trans (List.map_id' _)).symm

theorem succeeds_deactivate (now threshold : Nat) (d : DeviceKey) :
    Succeeds d (deactivate now threshold d) := by
  unfold deactivate
  split_ifs
  · exact succeeds_deactivated d
  · exact Succeeds.refl d

theorem succeeds_updateDevice (env : Env) (keyId : BytesN 32) {updater : DeviceKey → DeviceKey}
    (hupdater : ∀ d, Succeeds d (updater d)) :
    List.Forall₂ Succeeds (self.listDevices env)
      (self.listDevices (updateDevice env self.address keyId updater).2) := by
  have hrecords := loadDevices_updateDevice env self.address keyId updater
  unfold listDevices
  rw [hrecords]
  apply (KeyedList.forall₂_modifyFirst keyId updater (loadDevices env self.address)).imp
  intro d d' hd
  rcases hd with hsame | hupdated
  · rw [hsame]
    exact Succeeds.refl d
  · rw [hupdated]
    exact hupdater d

-- A use leaves the policy alone. It lets the records succeed themselves or appends one.
theorem use_cases (hpolicy : loadPolicy env self.address = some policy) (input : Use) :
    loadPolicy (self.use env input) self.address = some policy ∧
      (List.Forall₂ Succeeds (self.listDevices env) (self.listDevices (self.use env input)) ∨
        ∃ d, Registrable policy (self.listDevices env) d ∧
          self.listDevices (self.use env input) = self.listDevices env ++ [d]) := by
  have hrefl : List.Forall₂ Succeeds (self.listDevices env) (self.listDevices env) :=
    List.forall₂_same.mpr fun d _ => Succeeds.refl d
  cases input with
  | invoke timestamp => exact ⟨hpolicy, Or.inl hrefl⟩
  | registerDevice keyId deviceName =>
      rw [use]
      rcases self.registerDevice_cases hpolicy keyId deviceName with hsame | ⟨d, hd, hstored⟩
      · rw [hsame]
        exact ⟨hpolicy, Or.inl hrefl⟩
      · rw [hstored, loadPolicy_storeDevices]
        exact ⟨hpolicy, Or.inr ⟨d, hd, loadDevices_storeDevices ..⟩⟩
  | revokeDevice keyId =>
      refine ⟨?_, Or.inl (self.succeeds_updateDevice env keyId succeeds_deactivated)⟩
      rw [use, revokeDevice, loadPolicy_updateDevice, hpolicy]
  | updateLastUsed keyId =>
      refine ⟨?_, Or.inl (self.succeeds_updateDevice env keyId fun d => succeeds_used d env.timestamp)⟩
      rw [use, updateLastUsed, loadPolicy_updateDevice, hpolicy]
  | cleanupInactive =>
      rw [use]
      constructor
      · unfold cleanupInactive
        dsimp only
        split_ifs
        · exact hpolicy
        · rw [loadPolicy_storeDevices, hpolicy]
        · exact hpolicy
      · left
        by_cases hpositive : 0 < policy.autoRevokeAfter
        · rw [(self.cleanupInactive_spec hpolicy hpositive).2, List.forall₂_map_right_iff]
          exact List.forall₂_same.mpr fun d _ => succeeds_deactivate _ _ d
        · have hidle : (self.cleanupInactive env).2 = env := by
            unfold cleanupInactive
            simp only [hpolicy, Option.getD_some, if_pos (Nat.eq_zero_of_not_pos hpositive)]
          rw [hidle]
          exact hrefl

end Uses

-- The environment after a device manager has been created and used.
def inUse (address : Address) (policy : DevicePolicy) (env : Env) (uses : List Use) : Env :=
  run (new address policy env).1.use (new address policy env).2 uses

theorem loadPolicy_new (address : Address) (policy : DevicePolicy) (env : Env) :
    loadPolicy (new address policy env).2 (new address policy env).1.address = some policy := by
  rw [new, loadPolicy_storeDevices, loadPolicy_storePolicy]

theorem registry_inUse (address : Address) (policy : DevicePolicy) (env : Env) (uses : List Use) :
    loadPolicy (inUse address policy env uses) address = some policy ∧
      Registry policy ((new address policy env).1.listDevices (inUse address policy env uses)) := by
  have hempty : (new address policy env).1.listDevices (new address policy env).2 = [] :=
    loadDevices_storeDevices ..
  apply run_invariant_of_step
    (fun after => loadPolicy after address = some policy ∧
      Registry policy ((new address policy env).1.listDevices after)) ?_ ?_ uses
  · intro after input h
    obtain ⟨hpolicy, hlist⟩ := (new address policy env).1.use_cases h.1 input
    refine ⟨hpolicy, ?_⟩
    rcases hlist with hsucceeds | ⟨d, hd, happended⟩
    · exact h.2.succeeds hsucceeds
    · rw [happended]
      exact h.2.register hd
  · refine ⟨loadPolicy_new address policy env, ?_⟩
    rw [hempty]
    exact ⟨fun _ => Nat.zero_le _, Nat.zero_le _⟩

theorem continues_inUse (address : Address) (policy : DevicePolicy) (env : Env) (uses later : List Use) :
    Continues ((new address policy env).1.listDevices (inUse address policy env uses))
      ((new address policy env).1.listDevices (inUse address policy env (uses ++ later))) := by
  induction later using List.reverseRecOn with
  | nil =>
      rw [List.append_nil]
      exact Continues.refl _
  | append_singleton later input ih =>
      have hpolicy := (registry_inUse address policy env (uses ++ later)).1
      obtain ⟨_, hlist⟩ := (new address policy env).1.use_cases hpolicy input
      have hstep : inUse address policy env (uses ++ (later ++ [input])) =
          (new address policy env).1.use (inUse address policy env (uses ++ later)) input := by
        rw [← List.append_assoc]
        exact run_concat ..
      rw [hstep]
      apply ih.trans
      rcases hlist with hsucceeds | ⟨d, _, happended⟩
      · exact continues_of_forall₂ hsucceeds
      · have hcontinues := continues_append
          ((new address policy env).1.listDevices (inUse address policy env (uses ++ later))) d
        rwa [← happended] at hcontinues

-- Under one policy an account has at most one active record per key and no more active records than
-- allowed; its list only grows, and nothing in it is activated again; a cleanup deactivates the active
-- records that have been unused for too long, and counts them.
theorem devices_inUse (address : Address) (policy : DevicePolicy) (env : Env) (uses : List Use) :
    let manager := (new address policy env).1
    let after := inUse address policy env uses
    Registry policy (manager.listDevices after) ∧
    (∀ later, Continues (manager.listDevices after)
      (manager.listDevices (inUse address policy env (uses ++ later)))) ∧
    (0 < policy.autoRevokeAfter →
      (manager.cleanupInactive after).1 = (manager.listDevices after).countP (fun d =>
        d.isActive ∧ policy.autoRevokeAfter < after.timestamp - d.lastUsed) ∧
      manager.listDevices (manager.cleanupInactive after).2 = (manager.listDevices after).map fun d =>
        if d.isActive ∧ policy.autoRevokeAfter < after.timestamp - d.lastUsed then { d with isActive := false }
        else d) := by
  intro manager after
  obtain ⟨hpolicy, hregistry⟩ : loadPolicy after address = some policy ∧
    Registry policy (manager.listDevices after) := registry_inUse address policy env uses
  refine ⟨hregistry, continues_inUse address policy env uses, fun hpositive => ?_⟩
  obtain ⟨hcount, hrecords⟩ := manager.cleanupInactive_spec hpolicy hpositive
  constructor
  · rw [hcount]
    apply List.countP_congr
    intro d _
    simp [stale]
  · rw [hrecords]
    apply List.map_congr_left
    intro d _
    simp [deactivate, stale]

end Registry

end DeviceManager

end Cougr.Accounts
